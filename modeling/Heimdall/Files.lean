import Heimdall.Edge.Routes
import Heimdall.Interface

/-!
# Files

A file system gives the text of each path that exists. `FileOp.Step` says what one file operation
does to it: a replacement is atomic, a failed write may leave anything in the file it was writing,
and any other operation that fails changes nothing. Reading text translates line ends, as Python's
text mode does.

`FileOp.Step` says when an operation may fail only by the class of the exception; `FileOp.Succeeds`
is the special case of a disk on which nothing fails.
-/

namespace Heimdall

/-- The text of each existing file. -/
abbrev FileSystem : Type := Path → Option String

/-- Universal newlines: every line end becomes a line feed. -/
def universalNewlines : List Char → List Char
  | '\r' :: '\n' :: cs => '\n' :: universalNewlines cs
  | '\r' :: cs => '\n' :: universalNewlines cs
  | c :: cs => c :: universalNewlines cs
  | [] => []

/-- What reading a file as text returns. -/
def decodeText (raw : String) : String := String.ofList (universalNewlines raw.toList)

theorem universalNewlines_eq_self {cs : List Char} (h : '\r' ∉ cs) : universalNewlines cs = cs := by
  induction cs with
  | nil => rfl
  | cons c cs ih =>
    obtain ⟨hc, hcs⟩ := not_or.mp (List.mem_cons.not.mp h)
    unfold universalNewlines
    split
    · simp_all
    · simp_all
    · rename_i heq
      obtain ⟨rfl, rfl⟩ := List.cons.inj heq
      rw [ih hcs]
    · simp_all

theorem notMem_universalNewlines (cs : List Char) : '\r' ∉ universalNewlines cs := by
  induction cs using universalNewlines.induct with
  | case1 cs ih => simpa [universalNewlines] using ih
  | case2 cs h ih =>
    rw [universalNewlines.eq_2 _ h]
    simpa using ih
  | case3 c cs h h' ih =>
    rw [universalNewlines.eq_3 _ _ h h']
    refine List.mem_cons.not.mpr (not_or.mpr ⟨?_, ih⟩)
    rintro rfl
    exact h' rfl
  | case4 => simp [universalNewlines]

theorem decodeText_eq_self {s : String} (h : NoCarriageReturn s) : decodeText s = s := by
  rw [decodeText, universalNewlines_eq_self h, String.ofList_toList]

theorem decodeText_noCarriageReturn (s : String) : NoCarriageReturn (decodeText s) := by
  rw [NoCarriageReturn, decodeText, String.toList_ofList]
  exact notMem_universalNewlines s.toList

/-! ## Operations -/

/-- The exceptions a file operation raises. -/
def FileOp.Raises : FileOp → Exc → Prop
  | .readText _, x => x = .osError ∨ x = .unicode
  | _, x => x = .osError

/-- The effect of one file operation. -/
def FileOp.Step (fs : FileSystem) (o : FileOp) (r : Except Exc o.Ans) (fs' : FileSystem) : Prop :=
  match o, r with
  | .exists p, .ok found => found = (fs p).isSome ∧ fs' = fs
  | .readText p, .ok text => (∃ raw, fs p = some raw ∧ text = decodeText raw) ∧ fs' = fs
  | .mkstemp, .ok n => fs (.edge (.temporary n)) = none
      ∧ fs' = Function.update fs (.edge (.temporary n)) (some "")
  | .writeText p text, .ok _ => fs' = Function.update fs p (some text)
  | .writeText p _, .error x => x = .osError ∧ ∃ rest, fs' = Function.update fs p rest
  | .replace source target, .ok _ => ∃ text, fs source = some text
      ∧ fs' = Function.update (Function.update fs target (some text)) source none
  | .unlink p, .ok _ => fs' = Function.update fs p none
  | _, .ok _ => fs' = fs
  | o, .error x => o.Raises x ∧ fs' = fs

/-- The operations that leave every text as it is. -/
def FileOp.ReadOnly : FileOp → Prop
  | .mkstemp | .writeText _ _ | .replace _ _ | .unlink _ => False
  | _ => True

theorem FileOp.Step.readOnly {fs fs' : FileSystem} {o : FileOp} {r : Except Exc o.Ans}
    (h : FileOp.Step fs o r fs') (ho : o.ReadOnly) : fs' = fs := by
  cases o <;> cases r <;> first
    | exact ho.elim
    | exact h.2
    | exact h

theorem FileOp.Step.raises {fs fs' : FileSystem} {o : FileOp} {x : Exc}
    (h : FileOp.Step fs o (.error x) fs') : o.Raises x := by
  cases o <;> exact h.1

/-- The operation did not fail. -/
def Succeeds {α : Type} : Except Exc α → Prop
  | .ok _ => True
  | .error _ => False

/-- The paths an operation may write. -/
def FileOp.writes : FileOp → List Path
  | .writeText p _ | .unlink p => [p]
  | .replace source target => [source, target]
  | _ => []

/-- An operation leaves every path alone that it does not write; `mkstemp` makes a new temporary
file. -/
theorem FileOp.Step.frame {fs fs' : FileSystem} {o : FileOp} {r : Except Exc o.Ans}
    (h : FileOp.Step fs o r fs') {p : Path} (hp : p ∉ o.writes)
    (hnew : o = .mkstemp → ∀ n, p ≠ .edge (.temporary n)) : fs' p = fs p := by
  cases o <;> cases r <;> simp only [FileOp.Step, FileOp.writes, List.mem_cons, List.not_mem_nil,
    or_false, not_or] at h hp
  case mkstemp.ok n =>
    rw [h.2, Function.update_of_ne (hnew rfl n)]
  case writeText.error =>
    obtain ⟨-, rest, rfl⟩ := h
    rw [Function.update_of_ne hp]
  case writeText.ok => rw [h, Function.update_of_ne hp]
  case replace.ok =>
    obtain ⟨text, -, rfl⟩ := h
    rw [Function.update_of_ne hp.1, Function.update_of_ne hp.2]
  case unlink.ok => rw [h, Function.update_of_ne hp]
  all_goals first
    | rw [h.2]
    | rw [h]

/-! ## A disk that can be computed -/

/-- A disk on which an operation fails only when it cannot be done. `mkstemp` tries one number. -/
def FileOp.perform (fs : FileSystem) (n : ℕ) : (o : FileOp) → Except Exc o.Ans × FileSystem
  | .exists p => (.ok (fs p).isSome, fs)
  | .readText p => ((fs p).elim (.error .osError) fun raw ↦ .ok (decodeText raw), fs)
  | .mkstemp =>
    if fs (.edge (.temporary n)) = none then
      (.ok n, Function.update fs (.edge (.temporary n)) (some ""))
    else (.error .osError, fs)
  | .writeText p text => (.ok (), Function.update fs p (some text))
  | .replace source target => (fs source).elim (.error .osError, fs) fun text ↦
      (.ok (), Function.update (Function.update fs target (some text)) source none)
  | .unlink p => (.ok (), Function.update fs p none)
  | .isDirectory _ => (.ok true, fs)
  | .chmod _ | .fsync _ | .mkdir _ | .chmodDirectory _ | .fsyncDirectory _ | .openLock | .chmodLock
  | .flockExclusive | .flockUnlock | .closeLock => (.ok (), fs)

theorem FileOp.perform_step (fs : FileSystem) (n : ℕ) (o : FileOp) :
    FileOp.Step fs o (o.perform fs n).1 (o.perform fs n).2 := by
  cases o
  case readText p =>
    cases hp : fs p with
    | none =>
      rw [show FileOp.perform fs n (.readText p) = (.error .osError, fs) by simp [perform, hp]]
      exact ⟨.inl rfl, rfl⟩
    | some raw =>
      rw [show FileOp.perform fs n (.readText p) = (.ok (decodeText raw), fs) by simp [perform, hp]]
      exact ⟨⟨raw, hp, rfl⟩, rfl⟩
  case mkstemp =>
    by_cases hn : fs (.edge (.temporary n)) = none
    · rw [show FileOp.perform fs n .mkstemp
        = (.ok n, Function.update fs (.edge (.temporary n)) (some "")) from if_pos hn]
      exact ⟨hn, rfl⟩
    · rw [show FileOp.perform fs n .mkstemp = (.error .osError, fs) from if_neg hn]
      exact ⟨rfl, rfl⟩
  case replace source target =>
    cases hp : fs source with
    | none =>
      rw [show FileOp.perform fs n (.replace source target) = (.error .osError, fs) by
        simp [perform, hp]]
      exact ⟨rfl, rfl⟩
    | some text =>
      rw [show FileOp.perform fs n (.replace source target)
        = (.ok (), Function.update (Function.update fs target (some text)) source none) by
        simp [perform, hp]]
      exact ⟨text, hp, rfl⟩
  case «exists» p => exact ⟨rfl, rfl⟩
  all_goals exact rfl

end Heimdall
