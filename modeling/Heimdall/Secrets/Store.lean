import Heimdall.Effect.Embed
import Heimdall.Effect.Table
import Heimdall.Errors
import Heimdall.Text.PosixPath
import Heimdall.Text.Sha256
import Heimdall.Text.Utf8

/-!
# The secret store

Each version of a secret is a file of its own below the root of the store: `create` writes it once,
`resolve` and `read` accept it under its fingerprint. A file is written under a temporary name and
then linked to its own, which fails when there is one already, so a file that exists keeps its
content (`SecretFiles.Keeps`).

The root has files and directories that belong to the program, and no symbolic links. A write leaves
the whole payload in the file or raises; a write that raises may leave anything in the temporary
file.
-/

namespace Heimdall

open Effect

/-! ## Files -/

/-- The files below the root, by the parts of their paths. Temporary files have numbers in place of
random names. -/
inductive SecretPath where
  | file (path : List String)
  | temporary (target : List String) (n : ℕ)
deriving DecidableEq

structure PrivateFile where
  mode : ℕ
  payload : List UInt8
deriving DecidableEq

/-- Neither the group nor others have any permission. -/
def PrivateFile.isPrivate (f : PrivateFile) : Bool := f.mode &&& 0o077 == 0

theorem PrivateFile.isPrivate_ownerRead (payload : List UInt8) :
    (PrivateFile.mk 0o400 payload).isPrivate = true := by simp [PrivateFile.isPrivate]

abbrev SecretFiles : Type := AList fun _ : SecretPath ↦ PrivateFile

namespace SecretFiles

/-- Every file stays, with its content. -/
def Keeps (files files' : SecretFiles) : Prop :=
  ∀ path f, files.lookup (.file path) = some f → ∃ f', files'.lookup (.file path) = some f'
    ∧ f'.payload = f.payload ∧ (f.isPrivate → f'.isPrivate)

/-- No file outside of `T` is touched. -/
def Writes (T : Set (List String)) (files files' : SecretFiles) : Prop :=
  ∀ path ∉ T, files'.lookup (.file path) = files.lookup (.file path)

variable {files files₁ files₂ : SecretFiles} {T T₁ T₂ : Set (List String)}

theorem Keeps.refl (files : SecretFiles) : files.Keeps files := fun _ f h ↦ ⟨f, h, rfl, id⟩

theorem Keeps.trans (h₁ : files.Keeps files₁) (h₂ : files₁.Keeps files₂) : files.Keeps files₂ := by
  intro path f hf
  obtain ⟨f₁, hf₁, hpayload₁, hprivate₁⟩ := h₁ path f hf
  obtain ⟨f₂, hf₂, hpayload₂, hprivate₂⟩ := h₂ path f₁ hf₁
  exact ⟨f₂, hf₂, hpayload₂.trans hpayload₁, fun h ↦ hprivate₂ (hprivate₁ h)⟩

theorem Writes.refl (files : SecretFiles) : Writes T files files := fun _ _ ↦ rfl

theorem Writes.trans (h₁ : Writes T₁ files files₁) (h₂ : Writes T₂ files₁ files₂) :
    Writes (T₁ ∪ T₂) files files₂ := fun path hpath ↦
  (h₂ path fun h ↦ hpath (.inr h)).trans (h₁ path fun h ↦ hpath (.inl h))

theorem Keeps.of_lookup (h : ∀ path, files₁.lookup (.file path) = files.lookup (.file path)) :
    files.Keeps files₁ := fun path f hf ↦ ⟨f, (h path).trans hf, rfl, id⟩

/-- `_read_private_file` -/
def readPrivateFile (files : SecretFiles) (path : List String) : Except Exc (List UInt8) :=
  match files.lookup (.file path) with
  | some f => if f.isPrivate then .ok f.payload else .error .secretStore
  | none => .error .secretStore

end SecretFiles

/-! ## Reading -/

/-- `_safe_relative` -/
def safeRelative (value : String) : Except Exc (List String) :=
  let parts := PosixPath.parts value
  if PosixPath.isAbsolute value || parts.isEmpty || parts.any (· ∈ ["", ".", ".."]) then
    .error .secretStore
  else .ok parts

theorem safeRelative_asPosix {path : List String} (h : ∀ part ∈ path, PosixPath.IsPart part)
    (hne : path ≠ []) : safeRelative (PosixPath.asPosix path) = .ok path := by
  have hparts : path.any (· ∈ ["", ".", ".."]) = false := by
    rw [List.any_eq_false]
    intro part hpart
    obtain ⟨hempty, hdot, hdots, -⟩ := h part hpart
    simp [hempty, hdot, hdots]
  have hempty : path.isEmpty = false := by simpa using hne
  rw [safeRelative, PosixPath.parts_asPosix h hne, PosixPath.isAbsolute_asPosix h, hparts, hempty]
  rfl

/-- `decode("utf-8")` -/
def decodeUtf8 (payload : List UInt8) : Except Exc String :=
  let cs := Utf8.decode id (fun c _ ↦ c) (fun _ ↦ ['\uFFFD']) payload
  if Utf8.encode cs = payload then .ok (String.ofList cs) else .error .unicode

namespace FileSecretStore

def resolve (files : SecretFiles) (reference fingerprint : String) :
    Except Exc (List String) := do
  let path ← safeRelative reference
  let payload ← files.readPrivateFile path
  if Sha256.hexdigest payload = fingerprint then .ok path else .error .secretStore

def read (files : SecretFiles) (reference fingerprint : String) : Except Exc String := do
  let path ← resolve files reference fingerprint
  let payload ← files.readPrivateFile path
  decodeUtf8 payload

end FileSecretStore

/-- The store has the payload under this reference and fingerprint. -/
def SecretFiles.Holds (files : SecretFiles) (reference fingerprint : String)
    (payload : List UInt8) : Prop :=
  Sha256.hexdigest payload = fingerprint ∧ ∃ path f, safeRelative reference = .ok path
    ∧ files.lookup (.file path) = some f ∧ f.isPrivate ∧ f.payload = payload

theorem SecretFiles.Holds.keeps {files files' : SecretFiles} {reference fingerprint : String}
    {payload : List UInt8} (h : files.Holds reference fingerprint payload)
    (hkeeps : files.Keeps files') : files'.Holds reference fingerprint payload := by
  obtain ⟨hfingerprint, path, f, hpath, hf, hprivate, hpayload⟩ := h
  obtain ⟨f', hf', hpayload', hprivate'⟩ := hkeeps path f hf
  exact ⟨hfingerprint, path, f', hpath, hf', hprivate' hprivate, hpayload'.trans hpayload⟩

theorem SecretFiles.readPrivateFile_ok {files : SecretFiles} {path : List String}
    {payload : List UInt8} (h : files.readPrivateFile path = .ok payload) :
    ∃ f, files.lookup (.file path) = some f ∧ f.isPrivate ∧ f.payload = payload := by
  unfold readPrivateFile at h
  split at h
  · next f hf =>
    split at h
    · next hprivate => exact ⟨f, hf, hprivate, Except.ok.inj h⟩
    · cases h
  · cases h

theorem SecretFiles.readPrivateFile_error {files : SecretFiles} {path : List String} {x : Exc}
    (h : files.readPrivateFile path = .error x) : x = .secretStore := by
  unfold readPrivateFile at h
  split at h
  · split at h
    · cases h
    · exact (Except.error.inj h).symm
  · exact (Except.error.inj h).symm

theorem SecretFiles.readPrivateFile_of_lookup {files : SecretFiles} {path : List String}
    {f : PrivateFile} (hf : files.lookup (.file path) = some f) (hprivate : f.isPrivate) :
    files.readPrivateFile path = .ok f.payload := by
  rw [SecretFiles.readPrivateFile, hf]
  simp [hprivate]

theorem SecretFiles.Holds.resolve {files : SecretFiles} {reference fingerprint : String}
    {payload : List UInt8} (h : files.Holds reference fingerprint payload) :
    ∃ path, FileSecretStore.resolve files reference fingerprint = .ok path
      ∧ files.readPrivateFile path = .ok payload := by
  obtain ⟨hfingerprint, path, f, hpath, hf, hprivate, rfl⟩ := h
  have hread := readPrivateFile_of_lookup hf hprivate
  refine ⟨path, ?_, hread⟩
  rw [FileSecretStore.resolve, hpath]
  simp [bind, Except.bind, hread, hfingerprint]

theorem SecretFiles.Holds.read {files : SecretFiles} {reference fingerprint : String}
    {payload : List UInt8} (h : files.Holds reference fingerprint payload) :
    FileSecretStore.read files reference fingerprint = decodeUtf8 payload := by
  obtain ⟨path, hresolve, hread⟩ := h.resolve
  rw [FileSecretStore.read, hresolve]
  simp [bind, Except.bind, hread]

/-! ## Writing -/

inductive SecretOp where
  /-- `_ensure_private_directory` -/
  | ensurePrivateDirectory (directory : List String)
  | exists (path : List String)
  | readPrivateFile (path : List String)
  /-- `secrets.token_urlsafe(32)` -/
  | tokenUrlsafe
  /-- Create a temporary file for a target. -/
  | openTemporary (target : List String)
  /-- Write a temporary file, flush it to the disk and close it. -/
  | write (target : List String) (n : ℕ) (payload : List UInt8)
  | link (target : List String) (n : ℕ)
  /-- `unlink(missing_ok=True)` -/
  | unlink (target : List String) (n : ℕ)
  | chmod (target : List String)
deriving DecidableEq

abbrev SecretOp.Ans : SecretOp → Type
  | .exists _ => Bool
  | .readPrivateFile _ => List UInt8
  | .tokenUrlsafe => String
  | .openTemporary _ => ℕ
  | _ => Unit

abbrev SecretProg (α : Type) : Type := Prog SecretOp SecretOp.Ans Exc α

/-- Perform one operation. -/
def SecretOp.perform (o : SecretOp) : SecretProg o.Ans := Prog.op o

structure StoredSecret where
  reference : String
  version : ℕ
  fingerprint : String
deriving DecidableEq

/-- The name of the file of a version. -/
def versionName (version : ℕ) : String := "v" ++ toString version ++ ".secret"

/-- `_write_once` -/
def writeOnce (target : List String) (payload : List UInt8) : SecretProg Unit := do
  let n ← (SecretOp.openTemporary target).perform
  (SecretOp.write target n payload).perform
  Prog.tryFinally
    (Prog.tryCatch (SecretOp.link target n).perform fun
      | .fileExists => pure ()
      | x => Prog.raise x)
    (SecretOp.unlink target n).perform
  (SecretOp.chmod target).perform

/-- The given value, or a new one. -/
def secretValue : Option String → SecretProg String
  | some value => pure value
  | none => SecretOp.tokenUrlsafe.perform

/-- Keep the file that there is, or write one. A file with other content than the given value is
refused. -/
def storeVersion (target : List String) (payload : List UInt8) (given : Bool) :
    SecretProg String := do
  if ← (SecretOp.exists target).perform then
    let existing ← (SecretOp.readPrivateFile target).perform
    if Sha256.hexdigest existing ≠ Sha256.hexdigest payload ∧ given then Prog.raise .secretStore
    else pure (Sha256.hexdigest existing)
  else
    writeOnce target payload
    pure (Sha256.hexdigest payload)

def FileSecretStore.create (referenceRoot : String) (version : ℕ) (value : Option String) :
    SecretProg StoredSecret := do
  let relativeRoot ← Prog.ofExcept (safeRelative referenceRoot)
  (SecretOp.ensurePrivateDirectory []).perform
  (SecretOp.ensurePrivateDirectory relativeRoot).perform
  let target := relativeRoot ++ [versionName version]
  let secretValue ← secretValue value
  let fingerprint ← storeVersion target (Utf8.encode secretValue.toList) value.isSome
  pure { reference := PosixPath.asPosix target, version, fingerprint }

/-! ### What an operation does -/

namespace SecretOp

/-- The exceptions an operation raises when the disk fails. -/
def Raises : SecretOp → Exc → Prop
  | .ensurePrivateDirectory _, x | .readPrivateFile _, x => x = .osError ∨ x = .secretStore
  | _, x => x = .osError

/-- The effect of one operation. -/
def Step (files : SecretFiles) (o : SecretOp) (r : Except Exc o.Ans) (files' : SecretFiles) : Prop :=
  match o, r with
  | .exists path, .ok found => found = (files.lookup (.file path)).isSome ∧ files' = files
  | .readPrivateFile path, .ok payload => files.readPrivateFile path = .ok payload ∧ files' = files
  | .openTemporary target, .ok n => files.lookup (.temporary target n) = none
      ∧ files' = files.insert (.temporary target n) ⟨0o400, []⟩
  | .write target n payload, .ok _ => files' = files.insert (.temporary target n) ⟨0o400, payload⟩
  | .write target n _, .error x => x = .osError
      ∧ ∃ rest, files' = files.insert (.temporary target n) ⟨0o400, rest⟩
  | .link target n, .ok _ => files.lookup (.file target) = none
      ∧ ∃ f, files.lookup (.temporary target n) = some f ∧ files' = files.insert (.file target) f
  | .link target _, .error .fileExists => (files.lookup (.file target)).isSome ∧ files' = files
  | .unlink target n, .ok _ => files' = files.erase (.temporary target n)
  | .chmod target, .ok _ => ∃ f, files.lookup (.file target) = some f
      ∧ files' = files.insert (.file target) { f with mode := 0o400 }
  | _, .ok _ => files' = files
  | o, .error x => o.Raises x ∧ files' = files

/-- What an operation needs that the disk cannot fail it for. -/
def Refused (files : SecretFiles) : SecretOp → Prop
  | .readPrivateFile path => ∀ payload, files.readPrivateFile path ≠ .ok payload
  | .link target n => (files.lookup (.file target)).isSome ∨ files.lookup (.temporary target n) = none
  | .chmod target => files.lookup (.file target) = none
  | _ => False

/-- The effect of one operation when the disk does not fail. -/
def Sound (files : SecretFiles) (o : SecretOp) (r : Except Exc o.Ans) (files' : SecretFiles) :
    Prop :=
  Step files o r files' ∧ ∀ x, r = .error x → o.Refused files

/-- The path an operation may write. -/
def Targets : SecretOp → Set (List String)
  | .link target _ | .chmod target => {target}
  | _ => ∅

variable {files files' : SecretFiles} {o : SecretOp} {r : Except Exc o.Ans}

/-- What an operation can do to the files. -/
inductive Change (files : SecretFiles) : SecretOp → SecretFiles → Prop
  | same (o : SecretOp) : Change files o files
  | temporary (o : SecretOp) (target : List String) (n : ℕ) (f : PrivateFile) :
    Change files o (files.insert (.temporary target n) f)
  | erase (o : SecretOp) (target : List String) (n : ℕ) :
    Change files o (files.erase (.temporary target n))
  | link {target : List String} {n : ℕ} (f : PrivateFile)
    (h : files.lookup (.file target) = none) :
    Change files (.link target n) (files.insert (.file target) f)
  | chmod {target : List String} {f : PrivateFile} (h : files.lookup (.file target) = some f) :
    Change files (.chmod target) (files.insert (.file target) { f with mode := 0o400 })

theorem Step.change (h : Step files o r files') : Change files o files' := by
  unfold Step at h
  split at h
  case h_1 | h_2 | h_7 | h_11 => exact h.2 ▸ .same _
  case h_3 => exact h.2 ▸ .temporary _ _ _ _
  case h_4 => exact h ▸ .temporary _ _ _ _
  case h_5 =>
    obtain ⟨-, rest, rfl⟩ := h
    exact .temporary _ _ _ _
  case h_6 =>
    obtain ⟨hnone, f, -, rfl⟩ := h
    exact .link f hnone
  case h_8 => exact h ▸ .erase _ _ _
  case h_9 =>
    obtain ⟨f, hf, rfl⟩ := h
    exact .chmod hf
  case h_10 => exact h ▸ .same _

theorem Step.writes (h : Step files o r files') : SecretFiles.Writes o.Targets files files' := by
  intro path hpath
  cases h.change with
  | same => rfl
  | temporary target n f => exact AList.lookup_insert_ne (by simp)
  | erase target n => exact AList.lookup_erase_ne (by simp)
  | link f hnone =>
    refine AList.lookup_insert_ne fun heq ↦ hpath ?_
    exact Set.mem_singleton_iff.mpr (SecretPath.file.inj heq)
  | chmod hf =>
    refine AList.lookup_insert_ne fun heq ↦ hpath ?_
    exact Set.mem_singleton_iff.mpr (SecretPath.file.inj heq)

theorem Step.keeps (h : Step files o r files') : files.Keeps files' := by
  intro path f hf
  by_cases hpath : path ∈ o.Targets
  · cases h.change with
    | same => exact ⟨f, hf, rfl, id⟩
    | temporary target n f' => exact ⟨f, by rwa [AList.lookup_insert_ne (by simp)], rfl, id⟩
    | erase target n => exact ⟨f, by rwa [AList.lookup_erase_ne (by simp)], rfl, id⟩
    | link f' hnone =>
      obtain rfl := Set.mem_singleton_iff.mp hpath
      rw [hnone] at hf
      cases hf
    | chmod hf' =>
      obtain rfl := Set.mem_singleton_iff.mp hpath
      obtain rfl := Option.some.inj (hf.symm.trans hf')
      exact ⟨_, AList.lookup_insert _, rfl, fun _ ↦ PrivateFile.isPrivate_ownerRead _⟩
  · exact ⟨f, (h.writes path hpath).trans hf, rfl, id⟩

/-! ### A disk that can be computed -/

/-- A number that no temporary file has. -/
def freshNumber (files : SecretFiles) : ℕ :=
  files.keys.foldr (fun path m ↦ match path with
    | .temporary _ n => max (n + 1) m
    | .file _ => m) 0

theorem lookup_freshNumber (files : SecretFiles) (target : List String) :
    files.lookup (.temporary target (freshNumber files)) = none := by
  rw [AList.lookup_eq_none, AList.mem_keys, freshNumber]
  have hlt : ∀ paths : List SecretPath, ∀ n, SecretPath.temporary target n ∈ paths →
      n < paths.foldr (fun path m ↦ match path with
        | .temporary _ n => max (n + 1) m
        | .file _ => m) 0 := by
    intro paths
    induction paths with
    | nil => simp
    | cons path paths ih =>
      intro n hn
      rw [List.foldr_cons]
      rcases List.mem_cons.mp hn with rfl | hn
      · exact (Nat.lt_succ_self n).trans_le (Nat.le_max_left _ _)
      · have hle := ih n hn
        cases path with
        | temporary _ _ => exact hle.trans_le (Nat.le_max_right _ _)
        | file _ => exact hle
  exact fun hmem ↦ lt_irrefl _ (hlt _ _ hmem)

/-- A disk that does not fail, on which new values come from `token`. -/
def respond (token : String) (files : SecretFiles) :
    (o : SecretOp) → Except Exc o.Ans × SecretFiles
  | .exists path => (.ok (files.lookup (.file path)).isSome, files)
  | .readPrivateFile path => (files.readPrivateFile path, files)
  | .tokenUrlsafe => (.ok token, files)
  | .openTemporary target => (.ok (freshNumber files),
    files.insert (.temporary target (freshNumber files)) ⟨0o400, []⟩)
  | .write target n payload => (.ok (), files.insert (.temporary target n) ⟨0o400, payload⟩)
  | .link target n =>
    if (files.lookup (.file target)).isSome then (.error .fileExists, files)
    else match files.lookup (.temporary target n) with
      | some f => (.ok (), files.insert (.file target) f)
      | none => (.error .osError, files)
  | .unlink target n => (.ok (), files.erase (.temporary target n))
  | .chmod target => match files.lookup (.file target) with
    | some f => (.ok (), files.insert (.file target) { f with mode := 0o400 })
    | none => (.error .osError, files)
  | .ensurePrivateDirectory _ => (.ok (), files)

theorem Sound.of_ok {a : o.Ans} (h : Step files o (.ok a) files') : Sound files o (.ok a) files' :=
  ⟨h, nofun⟩

theorem Sound.of_error {x : Exc} (h : Step files o (.error x) files') (hrefused : o.Refused files) :
    Sound files o (.error x) files' :=
  ⟨h, fun _ _ ↦ hrefused⟩

theorem respond_sound (token : String) (files : SecretFiles) (o : SecretOp) :
    Sound files o (respond token files o).1 (respond token files o).2 := by
  cases o with
  | readPrivateFile path =>
    cases hread : files.readPrivateFile path with
    | ok payload =>
      rw [respond, hread]
      exact .of_ok ⟨hread, rfl⟩
    | error x =>
      obtain rfl := SecretFiles.readPrivateFile_error hread
      rw [respond, hread]
      exact .of_error ⟨.inr rfl, rfl⟩ fun payload hok ↦ by rw [hread] at hok; cases hok
  | link target n =>
    rw [respond]
    split
    · next hsome => exact .of_error ⟨hsome, rfl⟩ (.inl hsome)
    · next hnone =>
      split
      · next f hf => exact .of_ok ⟨Option.not_isSome_iff_eq_none.mp hnone, f, hf, rfl⟩
      · next hmissing => exact .of_error ⟨rfl, rfl⟩ (.inr hmissing)
  | chmod target =>
    rw [respond]
    split
    · next f hf => exact .of_ok ⟨f, hf, rfl⟩
    · next hmissing => exact .of_error ⟨rfl, rfl⟩ hmissing
  | «exists» path => exact .of_ok ⟨rfl, rfl⟩
  | openTemporary target => exact .of_ok ⟨lookup_freshNumber files target, rfl⟩
  | ensurePrivateDirectory _ | tokenUrlsafe | write _ _ _ | unlink _ _ => exact .of_ok rfl

end SecretOp

end Heimdall
