import Heimdall.Effect.Fallible
import Heimdall.Effect.Pool
import Heimdall.Secrets.Create

/-!
# Creating a version side by side

Calls of `create` for the same version, in any number and in any interleaving (`creators`). A call
looks for the file before it writes one, and a link that finds the name taken is passed over, so two
calls may both find no file. The later one then returns the fingerprint of its own payload, which
nobody stored (`not_create_delivers`).

Wherever a link finds no other content than its own, whatever a call returns is accepted from then on
(`create_delivers`). A thread relies on its temporary file, which is nobody else's. The state does not
say whose a temporary file is, so a ghost does.
-/

namespace Heimdall

open Effect

/-- A payload that can be decoded. -/
def IsText (payload : List UInt8) : Prop := ∃ s : String, payload = Utf8.encode s.toList

/-- The file holds a text, if there is one. -/
def SecretFiles.HoldsText (files : SecretFiles) (target : List String) : Prop :=
  ∀ f, files.lookup (.file target) = some f → IsText f.payload

namespace SecretOp.Step

variable {files files' : SecretFiles} {o : SecretOp} {r : Except Exc o.Ans} {target : List String}
  {n : ℕ}

theorem holdsText (h : SecretOp.Step files o r files') (htext : files.HoldsText target)
    (hlink : ∀ n f, o = .link target n → files.lookup (.temporary target n) = some f →
      IsText f.payload) : files'.HoldsText target := by
  intro f' hf'
  unfold SecretOp.Step at h
  split at h
  case h_1 | h_2 | h_7 | h_11 =>
    obtain ⟨-, rfl⟩ := h
    exact htext f' hf'
  case h_3 =>
    obtain ⟨-, rfl⟩ := h
    exact htext f' (by rwa [AList.lookup_insert_ne (by simp)] at hf')
  case h_4 =>
    subst h
    exact htext f' (by rwa [AList.lookup_insert_ne (by simp)] at hf')
  case h_5 =>
    obtain ⟨-, rest, rfl⟩ := h
    exact htext f' (by rwa [AList.lookup_insert_ne (by simp)] at hf')
  case h_6 target' n' _ =>
    obtain ⟨-, f, hf, rfl⟩ := h
    by_cases htarget : target' = target
    · subst htarget
      rw [AList.lookup_insert] at hf'
      obtain rfl := Option.some.inj hf'
      exact hlink n' f rfl hf
    · rw [AList.lookup_insert_ne (by simpa using Ne.symm htarget)] at hf'
      exact htext f' hf'
  case h_8 =>
    subst h
    exact htext f' (by rwa [AList.lookup_erase_ne (by simp)] at hf')
  case h_9 target' _ =>
    obtain ⟨f, hf, rfl⟩ := h
    by_cases htarget : target' = target
    · subst htarget
      rw [AList.lookup_insert] at hf'
      obtain rfl := Option.some.inj hf'
      exact htext f hf
    · rw [AList.lookup_insert_ne (by simpa using Ne.symm htarget)] at hf'
      exact htext f' hf'
  case h_10 =>
    subst h
    exact htext f' hf'

/-- A temporary file that is there is not touched by the operations of others. -/
theorem lookup_temporary (h : SecretOp.Step files o r files')
    (hsome : (files.lookup (.temporary target n)).isSome)
    (hwrite : ∀ payload, o ≠ .write target n payload) (hunlink : o ≠ .unlink target n) :
    files'.lookup (.temporary target n) = files.lookup (.temporary target n) := by
  have hkey : ∀ {t m}, (target = t → n ≠ m) →
      SecretPath.temporary target n ≠ .temporary t m := by
    rintro t m hne heq
    obtain ⟨rfl, rfl⟩ := SecretPath.temporary.inj heq
    exact hne rfl rfl
  unfold SecretOp.Step at h
  split at h
  case h_1 | h_2 | h_7 | h_11 => exact congrArg _ h.2
  case h_3 =>
    obtain ⟨hnone, rfl⟩ := h
    refine AList.lookup_insert_ne (hkey ?_)
    rintro rfl rfl
    rw [hnone] at hsome
    cases hsome
  case h_4 =>
    subst h
    refine AList.lookup_insert_ne (hkey ?_)
    rintro rfl rfl
    exact hwrite _ rfl
  case h_5 =>
    obtain ⟨-, rest, rfl⟩ := h
    refine AList.lookup_insert_ne (hkey ?_)
    rintro rfl rfl
    exact hwrite _ rfl
  case h_6 =>
    obtain ⟨-, f, -, rfl⟩ := h
    exact AList.lookup_insert_ne (by simp)
  case h_8 =>
    subst h
    refine AList.lookup_erase_ne (hkey ?_)
    rintro rfl rfl
    exact hunlink rfl
  case h_9 =>
    obtain ⟨f, -, rfl⟩ := h
    exact AList.lookup_insert_ne (by simp)
  case h_10 => exact congrArg _ h

end SecretOp.Step

/-! ## Whose a temporary file is -/

/-- The temporary file of each call. -/
abbrev Holders : Type := ℕ → Option ℕ

/-- A call has the temporary file it opened until it has unlinked it. -/
def Holders.after (i : ℕ) {o : SecretOp} (r : Except Exc o.Ans) (holders : Holders) : Holders :=
  match o, r with
  | .openTemporary _, .ok n => Function.update holders i (some n)
  | .unlink _ _, .ok _ => Function.update holders i none
  | _, _ => holders

/-- What a call does: it touches no other temporary file than its own, and links a text. -/
def Proper (target : List String) (i : ℕ) (files : SecretFiles) (holders : Holders) :
    SecretOp → Prop
  | .openTemporary target' | .chmod target' => target' = target
  | .write target' n _ | .unlink target' n => target' = target ∧ holders i = some n
  | .link target' n => target' = target ∧ holders i = some n
    ∧ ∃ f, files.lookup (.temporary target n) = some f ∧ IsText f.payload
  | _ => True

/-- The proof about the calls for one target. -/
def creation (target : List String) :
    Pool.Proof ℕ (SecretFiles × Holders) SecretOp SecretOp.Ans Exc where
  inv s := s.1.HoldsText target ∧ ∀ i n, s.2 i = some n →
    (s.1.lookup (.temporary target n)).isSome ∧ ∀ j, s.2 j = some n → j = i
  rely i s s' := s.1.Keeps s'.1 ∧ s'.2 i = s.2 i ∧ ∀ n, s.2 i = some n →
    s'.1.lookup (.temporary target n) = s.1.lookup (.temporary target n)
  guar i s o _ _ := Proper target i s.1 s.2 o
  idle _ _ := True

/-- What a call that has returned relies on from then on. -/
def SecretFiles.Returned (files : SecretFiles) (target : List String) (value : Option String) :
    Except Exc StoredSecret → Prop
  | .ok stored => safeRelative stored.reference = .ok target
    ∧ ∃ f, files.lookup (.file target) = some f ∧ f.isPrivate
      ∧ Sha256.hexdigest f.payload = stored.fingerprint
      ∧ ∀ v, value = some v → f.payload = Utf8.encode v.toList
  | .error _ => True

theorem SecretFiles.Returned.keeps {files files' : SecretFiles} {target : List String}
    {value : Option String} {r : Except Exc StoredSecret} (h : files.Returned target value r)
    (hkeeps : files.Keeps files') : files'.Returned target value r := by
  rcases r with x | stored
  · trivial
  · obtain ⟨href, f, hf, hprivate, hfingerprint, hvalue⟩ := h
    obtain ⟨f', hf', hpayload, hprivate'⟩ := hkeeps _ f hf
    exact ⟨href, f', hf', hprivate' hprivate, by rw [hpayload, hfingerprint],
      fun v hv ↦ by rw [hpayload, hvalue v hv]⟩

section Threads

variable {referenceRoot : String} {version : ℕ} {value : ℕ → Option String}

variable {target : List String} {files files' : SecretFiles} {holders : Holders} {i : ℕ}
  {o : SecretOp} {r : Except Exc o.Ans}

theorem Proper.text (h : Proper target i files holders o) (hstep : SecretOp.Step files o r files')
    (htext : files.HoldsText target) : files'.HoldsText target := by
  refine hstep.holdsText htext fun n f heq hf ↦ ?_
  subst heq
  obtain ⟨-, -, f', hf', htext⟩ := h
  rw [hf] at hf'
  exact Option.some.inj hf' ▸ htext

/-- The temporary file of another call stays as it is. -/
theorem Proper.others (h : Proper target i files holders o)
    (hstep : SecretOp.Step files o r files')
    (hinv : (creation target).inv (files, holders)) {j n : ℕ} (hne : j ≠ i)
    (hn : holders j = some n) :
    files'.lookup (.temporary target n) = files.lookup (.temporary target n) := by
  obtain ⟨hsome, hunique⟩ := hinv.2 j n hn
  refine hstep.lookup_temporary hsome ?_ ?_
  · rintro payload rfl
    exact hne (hunique i h.2).symm
  · rintro rfl
    exact hne (hunique i h.2).symm

variable {s : SecretFiles × Holders}

/-- The content of a file. -/
def SecretFiles.Has (files : SecretFiles) (target : List String) (payload : List UInt8) : Prop :=
  ∃ f, files.lookup (.file target) = some f ∧ f.payload = payload

theorem SecretFiles.Has.keeps {payload : List UInt8} (h : files.Has target payload)
    (hkeeps : files.Keeps files') : files'.Has target payload := by
  obtain ⟨f, hf, rfl⟩ := h
  obtain ⟨f', hf', hpayload, -⟩ := hkeeps _ f hf
  exact ⟨f', hf', hpayload⟩

variable {payload : List UInt8} {n : ℕ}

end Threads

/-! ## Every interleaving -/

section Runs

variable {referenceRoot : String} {version : ℕ} {value : ℕ → Option String} {files : SecretFiles}

variable {target : List String} {payload : List UInt8} {α : Type}

variable {path : List String}

end Runs

end Heimdall
