import Heimdall.FileTree
import Heimdall.Text.Uuid

/-!
# Deleting the secrets of a project

`delete_project_subtree` walks the directory of a project twice: `_validate_tree` looks at everything,
then `_delete_tree` removes it.
-/

namespace Heimdall

open Effect

abbrev DirectoryProg (α : Type) : Type := Prog DescriptorOp DescriptorOp.Ans Exc α

def DescriptorOp.perform (o : DescriptorOp) : DirectoryProg o.Ans := Prog.op o

namespace FileSecretStore

/-- A call of a function when that many frames are left on the stack of the interpreter. -/
def called {α : Type} (frames : ℕ) (p : DirectoryProg α) : DirectoryProg α :=
  match frames with
  | 0 => Prog.raise .runtime
  | _ + 1 => p

variable (user : ℕ)

/-- Keep a descriptor of a private directory. -/
def requirePrivateDirectory (fd : Descriptor) : DirectoryProg Descriptor := do
  let status ← (DescriptorOp.fstat fd).perform
  if status.kind ≠ .directory ∨ status.owner ≠ user ∨ status.mode ≠ 0o700 then
    (DescriptorOp.close fd).perform
    Prog.raise .secretStore
  else pure fd

/-- `_open_private_directory`, of the root of the store -/
def openPrivateDirectory (frames : ℕ) : DirectoryProg Descriptor := called frames do
  let fd ← DescriptorOp.openAnchor.perform
  requirePrivateDirectory user fd

/-- `_open_private_directory_at` -/
def openPrivateDirectoryAt (frames : ℕ) (parent : Descriptor) (name : String) :
    DirectoryProg Descriptor := called frames do
  let fd ← (DescriptorOp.openDirectory parent name).perform
  requirePrivateDirectory user fd

/-- `_validate_tree` -/
def validateTree : ℕ → Descriptor → DirectoryProg Unit
  | 0, _ => Prog.raise .runtime
  | frames + 1, fd => do
    let names ← (DescriptorOp.listdir fd).perform
    forM names fun name ↦ do
      let status ← (DescriptorOp.stat fd name).perform
      if status.owner ≠ user ∨ status.mode &&& 0o077 ≠ 0 then Prog.raise .secretStore
      else match status.kind with
      | .regular => pure ()
      | .other => Prog.raise .secretStore
      | .directory => do
        let child ← openPrivateDirectoryAt user frames fd name
        (validateTree frames child).tryFinally (DescriptorOp.close child).perform

/-- `_validate_private_entry`, of a file -/
def validatePrivateEntry (frames : ℕ) (status : FileStatus) : DirectoryProg Unit :=
  called frames (if status.isPrivate user .regular then pure () else Prog.raise .secretStore)

/-- What is removed is what was opened. -/
def requireSameIdentity (frames : ℕ) (identity current : FileStatus) : DirectoryProg Unit :=
  called frames (if identity.sameIdentity current then pure () else Prog.raise .secretStore)

/-- `_delete_tree` -/
def deleteTree : ℕ → Descriptor → DirectoryProg Unit
  | 0, _ => Prog.raise .runtime
  | frames + 1, fd => do
    let names ← (DescriptorOp.listdir fd).perform
    forM names fun name ↦ do
      let status ← (DescriptorOp.stat fd name).perform
      match status.kind with
      | .regular =>
        let file ← (DescriptorOp.openFile fd name).perform
        Prog.tryFinally
          (do
            let identity ← (DescriptorOp.fstat file).perform
            validatePrivateEntry user frames identity
            let current ← (DescriptorOp.stat fd name).perform
            requireSameIdentity frames identity current
            (DescriptorOp.unlink fd name).perform)
          (DescriptorOp.close file).perform
      | .other => Prog.raise .secretStore
      | .directory =>
        let child ← openPrivateDirectoryAt user frames fd name
        let identity ← (DescriptorOp.fstat child).perform
        Prog.tryFinally
          (do
            deleteTree frames child
            let current ← (DescriptorOp.stat fd name).perform
            requireSameIdentity frames identity current)
          (DescriptorOp.close child).perform
        (DescriptorOp.rmdir fd name).perform

/-- Delete an open directory of a project, below the open directory of all projects. -/
def deleteTarget (limit : ℕ) (projects target : Descriptor) (targetName : String) :
    DirectoryProg Unit := do
  let identity ← (DescriptorOp.fstat target).perform
  Prog.tryFinally
    (do
      validateTree user limit target
      deleteTree user limit target
      let current ← (DescriptorOp.stat projects targetName).perform
      if identity.sameIdentity current then pure () else Prog.raise .secretStore)
    (DescriptorOp.close target).perform
  (DescriptorOp.rmdir projects targetName).perform
  match ← (DescriptorOp.stat projects targetName).perform.attempt with
  | .error .fileNotFound => pure ()
  | .error x => Prog.raise x
  | .ok _ => Prog.raise .secretStore

/-- `delete_project_subtree`, with the frames that are left when it is called -/
def deleteProjectSubtree (limit : ℕ) (project : Uuid) : DirectoryProg Unit := do
  match ← (openPrivateDirectory user limit).attempt with
  | .error .fileNotFound => pure ()
  | .error x => Prog.raise x
  | .ok root =>
    Prog.tryFinally
      (Prog.tryCatch
        (do
          match ← (openPrivateDirectoryAt user limit root "projects").attempt with
          | .error .fileNotFound => pure ()
          | .error x => Prog.raise x
          | .ok projects =>
            Prog.tryFinally
              (do
                match ← (openPrivateDirectoryAt user limit projects project.str).attempt with
                | .error .fileNotFound => pure ()
                | .error x => Prog.raise x
                | .ok target => deleteTarget user limit projects target project.str)
              (DescriptorOp.close projects).perform)
        fun x ↦ if x.isOSError then Prog.raise .secretStore else Prog.raise x)
      (DescriptorOp.close root).perform

end FileSecretStore

/-! ## What the first pass accepts -/

/-- Everything is private, each directory exactly so, and no directory is deeper than the stack. -/
def Entries.Accepted (user : ℕ) : ℕ → Entries → Prop
  | _, .nil => True
  | frames, .leaf _ regular a rest =>
    regular = true ∧ a.owner = user ∧ a.mode &&& 0o077 = 0 ∧ rest.Accepted user frames
  | 0, .directory _ _ _ _ => False
  | frames + 1, .directory _ a inside rest =>
    a.owner = user ∧ a.mode = 0o700 ∧ inside.Accepted user frames ∧ rest.Accepted user (frames + 1)

/-- How far the second pass comes, and what it leaves: a file is removed when the process may read it
and a frame is left. -/
def Entries.removal (who : Access) : ℕ → Entries → Bool × Entries
  | _, .nil => (true, .nil)
  | frames, .leaf name regular a rest =>
    if 0 < frames ∧ who.may a 0o400 then rest.removal who frames
    else (false, .leaf name regular a rest)
  | 0, .directory name a inside rest => (false, .directory name a inside rest)
  | frames + 1, .directory name a inside rest =>
    match inside.removal who frames with
    | (true, _) => rest.removal who (frames + 1)
    | (false, left) => (false, .directory name a left rest)

section Removal

variable {who : Access} {frames : ℕ} {name : String} {a : Attributes} {inside rest : Entries}

theorem Entries.removal_emptied (h : (inside.removal who frames).1 = true) :
    (Entries.directory name a inside rest).removal who (frames + 1)
      = rest.removal who (frames + 1) := by
  rw [removal]
  split
  · rfl
  · next heq =>
    rw [heq] at h
    cases h

theorem Entries.removal_stopped (h : (inside.removal who frames).1 = false) :
    (Entries.directory name a inside rest).removal who (frames + 1)
      = (false, .directory name a (inside.removal who frames).2 rest) := by
  rw [removal]
  split
  · next heq =>
    rw [heq] at h
    cases h
  · next heq => rw [heq]

end Removal

theorem Entries.removal_finished {who : Access} {es : Entries} :
    ∀ {frames : ℕ}, (es.removal who frames).1 = true → (es.removal who frames).2 = .nil := by
  induction es with
  | nil => exact fun _ ↦ rfl
  | leaf name regular a rest ih =>
    intro frames h
    rw [removal] at h ⊢
    split
    · next hmay =>
      rw [if_pos hmay] at h
      exact ih h
    · next hmay =>
      rw [if_neg hmay] at h
      cases h
  | directory name a inside rest _ ihRest =>
    intro frames h
    cases frames with
    | zero => cases h
    | succ frames =>
      cases hinside : (inside.removal who frames).1 with
      | true =>
        rw [removal_emptied hinside] at h ⊢
        exact ihRest h
      | false =>
        rw [removal_stopped hinside] at h
        cases h

namespace FileSecretStore

open FileTree

section Walks

variable {who : Access} {t : FileTree} {fd : Descriptor} {path : List String} {a b : Attributes}
  {es inside : Entries} {name : String} {frames : ℕ}

theorem wp_close {Q : Except Exc Unit → FileTree → Prop}
    (h : Q (.ok ()) { t with descriptors := Function.update t.descriptors fd none }) :
    wp (World who) (DescriptorOp.close fd).perform Q t := wp_respond (.close fd) h

/-- A directory that is exactly private. -/
def IsPrivateDirectory (user : ℕ) (a : Attributes) : Prop := a.owner = user ∧ a.mode = 0o700

/-- An open directory is kept when it is private, and closed otherwise. -/
theorem wp_requirePrivateDirectory (hdescriptor : t.descriptors fd = some path)
    (hnode : t.find path = some (.directory a es)) :
    wp (World who) (requirePrivateDirectory who.user fd) (fun r t' ↦
      IsPrivateDirectory who.user a ∧ r = .ok fd ∧ t' = t
        ∨ ¬ IsPrivateDirectory who.user a ∧ r = .error .secretStore
          ∧ t' = { t with descriptors := Function.update t.descriptors fd none }) t := by
  have hfstat : t.respond who (.fstat fd) = (.ok (Node.directory a es).status, t) := by
    rw [respond, hdescriptor, Option.bind_some, hnode]
  refine wp_bind_answer hfstat ?_
  by_cases hprivate : IsPrivateDirectory who.user a
  · rw [if_neg (by simp [Node.status, hprivate.1, hprivate.2])]
    exact .inl ⟨hprivate, rfl, rfl⟩
  · rw [if_pos, wp_bind]
    · exact wp_close (.inr ⟨hprivate, rfl, rfl⟩)
    · by_cases howner : a.owner = who.user
      · exact .inr (.inr fun hmode ↦ hprivate ⟨howner, hmode⟩)
      · exact .inr (.inl howner)

/-- Opening a directory in an open directory: it has to be private. -/
theorem wp_openPrivateDirectoryAt (h : Opens who t fd path a es)
    (hn : es.lookup name = some (.directory b inside)) :
    wp (World who) (openPrivateDirectoryAt who.user (frames + 1) fd name) (fun r t' ↦
      IsPrivateDirectory who.user b ∧ r = .ok t.next ∧ t' = t.opening (path ++ [name])
        ∨ ¬ IsPrivateDirectory who.user b ∧ (∃ x, r = .error x ∧ x ≠ .fileNotFound) ∧ Later t t')
      t := by
  change wp (World who) (Prog.op _ >>= fun fd ↦ _) _ t
  cases hmay : who.may b 0o400 with
  | false =>
    refine wp_bind_failure ((h.respond_openDirectory hn).trans (openNode_error hmay)) (.inr ⟨?_, ?_⟩)
    · rintro ⟨howner, hmode⟩
      rw [(Access.may_private howner hmode).1] at hmay
      cases hmay
    · exact ⟨⟨_, rfl, by decide⟩, .refl t⟩
  | true =>
    refine wp_bind_answer ((h.respond_openDirectory hn).trans (openNode_ok hmay)) ?_
    have hnode : (t.opening (path ++ [name])).find (path ++ [name]) = some (.directory b inside) :=
      h.find_child.trans hn
    refine wp_mono (wp_requirePrivateDirectory (Function.update_self _ _ _) hnode) fun r t' hr ↦ ?_
    rcases hr with ⟨hprivate, rfl, rfl⟩ | ⟨hprivate, rfl, rfl⟩
    · exact .inl ⟨hprivate, rfl, rfl⟩
    · exact .inr ⟨hprivate, ⟨_, rfl, by decide⟩, (Later.opening t _).close (Nat.le_refl _)⟩

/-! ### The first pass -/

/-- The body of the loop of `_validate_tree`. -/
def validateEntry (user frames : ℕ) (fd : Descriptor) (name : String) : DirectoryProg Unit := do
  let status ← (DescriptorOp.stat fd name).perform
  if status.owner ≠ user ∨ status.mode &&& 0o077 ≠ 0 then Prog.raise .secretStore
  else match status.kind with
  | .regular => pure ()
  | .other => Prog.raise .secretStore
  | .directory => do
    let child ← openPrivateDirectoryAt user frames fd name
    (validateTree user frames child).tryFinally (DescriptorOp.close child).perform

theorem validateTree_succ (user frames : ℕ) (fd : Descriptor) :
    validateTree user (frames + 1) fd
      = (DescriptorOp.listdir fd).perform >>= fun names ↦ forM names (validateEntry user frames fd) :=
  rfl

/-- The first pass accepts a directory when it accepts everything in it, and changes nothing. -/
theorem wp_validateEntries (es : Entries) : ∀ {frames : ℕ} {t : FileTree} {fd : Descriptor}
    {path : List String} {a : Attributes} {whole : Entries}, Opens who t fd path a whole →
    fd < t.next → (∀ name ∈ es.names, whole.lookup name = es.lookup name) → es.Distinct →
    wp (World who) (forM es.names (validateEntry who.user frames fd))
      (fun r t' ↦ (r = .ok () ↔ es.Accepted who.user frames) ∧ Later t t') t := by
  induction es with
  | nil => exact fun _ _ _ _ ↦ ⟨by simp [Entries.Accepted], .refl _⟩
  | leaf name regular b rest ih =>
    intro frames t fd path a whole hopen hfd hlookup hdistinct
    have hn : whole.lookup name = some (.leaf regular b) :=
      (hlookup name List.mem_cons_self).trans (if_pos rfl)
    have hrest : ∀ n ∈ rest.names, whole.lookup n = rest.lookup n := by
      intro n hmem
      have hne : name ≠ n := fun heq ↦ hdistinct.1 (heq ▸ hmem)
      rw [hlookup n (List.mem_cons_of_mem _ hmem), Entries.lookup, if_neg hne]
    rw [Entries.names, List.forM_cons, validateEntry, Prog.bind_assoc]
    refine wp_bind_answer (hopen.respond_stat hn) ?_
    by_cases hprivate : b.owner = who.user ∧ b.mode &&& 0o077 = 0
    · rw [if_neg (by simp [Node.status, hprivate.1, hprivate.2])]
      cases regular with
      | true =>
        refine wp_mono (ih hopen hfd hrest hdistinct.2) fun r t' h ↦ ⟨?_, h.2⟩
        rw [h.1, Entries.Accepted]
        exact ⟨fun haccepted ↦ ⟨rfl, hprivate.1, hprivate.2, haccepted⟩, fun h ↦ h.2.2.2⟩
      | false => exact ⟨by simp [Entries.Accepted], .refl _⟩
    · have hfail : (Node.leaf regular b).status.owner ≠ who.user
          ∨ (Node.leaf regular b).status.mode &&& 0o077 ≠ 0 :=
        Decidable.not_and_iff_not_or_not.mp hprivate
      rw [if_pos hfail]
      refine ⟨⟨fun h ↦ (by cases h), fun haccepted ↦ ?_⟩, .refl _⟩
      exact absurd ⟨haccepted.2.1, haccepted.2.2.1⟩ hprivate
  | directory name b inside rest ihInside ihRest =>
    intro frames t fd path a whole hopen hfd hlookup hdistinct
    have hn : whole.lookup name = some (.directory b inside) :=
      (hlookup name List.mem_cons_self).trans (if_pos rfl)
    have hrest : ∀ n ∈ rest.names, whole.lookup n = rest.lookup n := by
      intro n hmem
      have hne : name ≠ n := fun heq ↦ hdistinct.1 (heq ▸ hmem)
      rw [hlookup n (List.mem_cons_of_mem _ hmem), Entries.lookup, if_neg hne]
    rw [Entries.names, List.forM_cons, validateEntry, Prog.bind_assoc]
    refine wp_bind_answer (hopen.respond_stat hn) ?_
    by_cases hprivate : b.owner = who.user ∧ b.mode &&& 0o077 = 0
    · rw [if_neg (by simp [Node.status, hprivate.1, hprivate.2])]
      change wp _ ((openPrivateDirectoryAt who.user frames fd name >>= fun child ↦ _) >>= _) _ t
      rw [Prog.bind_assoc, wp_bind]
      cases frames with
      | zero => exact ⟨⟨fun h ↦ (by cases h), fun haccepted ↦ haccepted.elim⟩, .refl _⟩
      | succ frames =>
        refine wp_mono (wp_openPrivateDirectoryAt hopen hn) fun r t' hr ↦ ?_
        rcases hr with ⟨hprivate, rfl, rfl⟩ | ⟨hnot, ⟨x, rfl, -⟩, hlater⟩
        · have hchild := hopen.opening hn hprivate.1 hprivate.2
          rw [andThen_ok, wp_bind, wp_tryFinally, validateTree_succ]
          refine wp_bind_answer hchild.respond_listdir ?_
          refine wp_mono (ihInside hchild (Nat.lt_succ_self _) (fun _ _ ↦ rfl) hdistinct.2.1)
            fun r t₁ h ↦ ?_
          obtain ⟨hr, hlater⟩ := h
          refine wp_close ?_
          rw [andThen_ok, wp_ofExcept]
          have hclosed := ((Later.opening t _).trans hlater).close (Nat.le_refl t.next)
          rcases r with x | ⟨⟩
          · exact ⟨⟨fun h ↦ (by cases h), fun haccepted ↦ (by cases hr.mpr haccepted.2.2.1)⟩, hclosed⟩
          · rw [andThen_ok]
            refine wp_mono (ihRest (hopen.later hclosed hfd) (Nat.lt_of_lt_of_le hfd hclosed.next)
              hrest hdistinct.2.2) fun r t₂ h ↦ ⟨?_, hclosed.trans h.2⟩
            rw [h.1, Entries.Accepted]
            exact ⟨fun haccepted ↦ ⟨hprivate.1, hprivate.2, hr.mp rfl, haccepted⟩, fun h ↦ h.2.2.2⟩
        · exact ⟨⟨fun h ↦ (by cases h), fun haccepted ↦ absurd ⟨haccepted.1, haccepted.2.1⟩ hnot⟩, hlater⟩
    · have hfail : (Node.directory b inside).status.owner ≠ who.user
          ∨ (Node.directory b inside).status.mode &&& 0o077 ≠ 0 :=
        Decidable.not_and_iff_not_or_not.mp hprivate
      rw [if_pos hfail]
      refine ⟨⟨fun h ↦ (by cases h), fun haccepted ↦ ?_⟩, .refl _⟩
      cases frames with
      | zero => exact haccepted.elim
      | succ frames => exact absurd ⟨haccepted.1, by simp [haccepted.2.1]⟩ hprivate

/-! ### The second pass -/

/-- The body of the loop of `_delete_tree`. -/
def deleteEntry (user frames : ℕ) (fd : Descriptor) (name : String) : DirectoryProg Unit := do
  let status ← (DescriptorOp.stat fd name).perform
  match status.kind with
  | .regular =>
    let file ← (DescriptorOp.openFile fd name).perform
    Prog.tryFinally
      (do
        let identity ← (DescriptorOp.fstat file).perform
        validatePrivateEntry user frames identity
        let current ← (DescriptorOp.stat fd name).perform
        requireSameIdentity frames identity current
        (DescriptorOp.unlink fd name).perform)
      (DescriptorOp.close file).perform
  | .other => Prog.raise .secretStore
  | .directory =>
    let child ← openPrivateDirectoryAt user frames fd name
    let identity ← (DescriptorOp.fstat child).perform
    Prog.tryFinally
      (do
        deleteTree user frames child
        let current ← (DescriptorOp.stat fd name).perform
        requireSameIdentity frames identity current)
      (DescriptorOp.close child).perform
    (DescriptorOp.rmdir fd name).perform

theorem deleteTree_succ (user frames : ℕ) (fd : Descriptor) :
    deleteTree user (frames + 1) fd
      = (DescriptorOp.listdir fd).perform >>= fun names ↦ forM names (deleteEntry user frames fd) :=
  rfl

/-- A file that is opened, looked at and removed. -/
theorem wp_deleteFile (hopen : Opens who t fd path a (.leaf name true b es)) (hfd : fd < t.next)
    (howner : b.owner = who.user) (hmode : b.mode &&& 0o077 = 0) :
    wp (World who) (deleteEntry who.user frames fd name) (fun r t' ↦
      (0 < frames ∧ who.may b 0o400) ∧ r = .ok () ∧ Later (t.put path es) t'
        ∨ ¬ (0 < frames ∧ who.may b 0o400) ∧ (∃ x, r = .error x) ∧ Later t t') t := by
  have hn : (Entries.leaf name true b es).lookup name = some (.leaf true b) := if_pos rfl
  have herase : (Entries.leaf name true b es).erase name = es := if_pos rfl
  refine wp_bind_answer (hopen.respond_stat hn) ?_
  change wp (World who) (Prog.op _ >>= fun file ↦ _) _ t
  by_cases hmay : who.may b 0o400 = true
  · refine wp_bind_answer ((hopen.respond_openFile hn).trans (openNode_ok hmay)) ?_
    have hopen₁ := hopen.later (Later.opening t (path ++ [name])) hfd
    have hfstat : (t.opening (path ++ [name])).respond who (.fstat t.next)
        = (.ok (Node.leaf true b).status, t.opening (path ++ [name])) := by
      have hfind : (t.opening (path ++ [name])).find (path ++ [name]) = some (.leaf true b) :=
        hopen₁.find_child.trans hn
      rw [respond, show (t.opening (path ++ [name])).descriptors t.next = some (path ++ [name]) from
        Function.update_self _ _ _, Option.bind_some, hfind]
    rw [wp_tryFinally]
    refine wp_bind_answer hfstat ?_
    cases frames with
    | zero =>
      refine wp_close (.inr ⟨fun h ↦ absurd h.1 (by decide), ⟨_, rfl⟩, ?_⟩)
      exact (Later.opening t _).close (Nat.le_refl _)
    | succ frames =>
      have hprivate : (Node.leaf true b).status.isPrivate who.user .regular = true := by
        simp [FileStatus.isPrivate, Node.status, howner, hmode]
      rw [wp_bind, validatePrivateEntry, called, if_pos hprivate, wp_pure', andThen_ok]
      refine wp_bind_answer (hopen₁.respond_stat hn) ?_
      rw [wp_bind, requireSameIdentity, called, if_pos (by simp [FileStatus.sameIdentity]), wp_pure',
        andThen_ok]
      refine wp_respond (.unlink fd name) ?_
      rw [hopen₁.respond_unlink hn, herase]
      refine wp_close (.inl ⟨⟨Nat.succ_pos _, hmay⟩, rfl, ?_⟩)
      exact ((Later.opening t _).put path es).close (Nat.le_refl _)
  · rw [Bool.not_eq_true] at hmay
    refine wp_bind_failure ((hopen.respond_openFile hn).trans (openNode_error hmay)) (.inr ⟨?_, ?_⟩)
    · exact fun h ↦ by simp [hmay] at h
    · exact ⟨⟨_, rfl⟩, .refl t⟩

theorem wp_deleteEntries (es : Entries) : ∀ {frames : ℕ} {t : FileTree} {fd : Descriptor}
    {path : List String} {a : Attributes}, Opens who t fd path a es → fd < t.next → es.Distinct →
    es.Accepted who.user frames → wp (World who) (forM es.names (deleteEntry who.user frames fd))
      (fun r t' ↦ (r = .ok () ↔ (es.removal who frames).1 = true)
        ∧ Later (t.put path (es.removal who frames).2) t') t := by
  induction es with
  | nil =>
    intro frames t fd path a hopen _ _ _
    refine ⟨⟨fun _ ↦ rfl, fun _ ↦ rfl⟩, ?_⟩
    rw [Entries.removal, hopen.put_self]
    exact .refl t
  | leaf name regular b rest ih =>
    intro frames t fd path a hopen hfd hdistinct ⟨hregular, howner, hmode, haccepted⟩
    subst hregular
    rw [Entries.names, List.forM_cons, wp_bind]
    refine wp_mono (wp_deleteFile hopen hfd howner hmode) fun r t₁ hr ↦ ?_
    rcases hr with ⟨hmay, rfl, hlater⟩ | ⟨hmay, ⟨x, rfl⟩, hlater⟩
    · rw [Entries.removal, if_pos hmay, andThen_ok]
      refine wp_mono (ih ((hopen.put rest).later hlater hfd) (Nat.lt_of_lt_of_le hfd hlater.next)
        hdistinct.2 haccepted) fun r t₂ ⟨hr, hlater'⟩ ↦ ⟨hr, ?_⟩
      have hput := hlater.put path (rest.removal who frames).2
      rw [put_put] at hput
      exact hput.trans hlater'
    · rw [Entries.removal, if_neg hmay, andThen_error, hopen.put_self]
      exact ⟨⟨nofun, nofun⟩, hlater⟩
  | directory name b inside rest ihInside ihRest =>
    intro frames t fd path a hopen hfd hdistinct haccepted
    cases frames with
    | zero => exact haccepted.elim
    | succ frames =>
      obtain ⟨howner, hmode, hinside, hrest⟩ := haccepted
      have hn : (Entries.directory name b inside rest).lookup name = some (.directory b inside) :=
        if_pos rfl
      rw [Entries.names, List.forM_cons, deleteEntry, Prog.bind_assoc]
      refine wp_bind_answer (hopen.respond_stat hn) ?_
      change wp _ ((openPrivateDirectoryAt who.user (frames + 1) fd name >>= fun child ↦ _) >>= _) _ t
      rw [Prog.bind_assoc, wp_bind]
      refine wp_mono (wp_openPrivateDirectoryAt hopen hn) fun r t₁ hr ↦ ?_
      rcases hr with ⟨-, rfl, rfl⟩ | ⟨hnot, -⟩
      · have hchild := hopen.opening hn howner hmode
        rw [andThen_ok, Prog.bind_assoc]
        refine wp_bind_answer hchild.respond_fstat ?_
        rw [Prog.bind_assoc, wp_bind, wp_tryFinally, wp_bind, deleteTree_succ]
        refine wp_bind_answer hchild.respond_listdir ?_
        refine wp_mono (ihInside hchild (Nat.lt_succ_self _) hdistinct.2.1 hinside)
          fun r t₂ ⟨hr, hlater⟩ ↦ ?_
        have hfd₁ : fd < t.next + 1 := Nat.lt_succ_of_lt hfd
        have hmodify (left : Entries) : (Entries.directory name b inside rest).modify name
            (fun _ ↦ left) = .directory name b left rest := if_pos rfl
        have hopen₁ := hopen.later (Later.opening t (path ++ [name])) hfd
        rw [hopen₁.put_child, hmodify] at hlater
        have hput := (Later.opening t (path ++ [name])).put path
          (.directory name b (inside.removal who frames).2 rest)
        rcases r with x | ⟨⟩
        · have hstopped : (inside.removal who frames).1 = false := by
            rw [← Bool.not_eq_true]
            exact fun hdone ↦ absurd (hr.mpr hdone) nofun
          rw [Entries.removal_stopped hstopped]
          exact wp_close ⟨⟨nofun, nofun⟩, (hput.trans hlater).close (Nat.le_refl _)⟩
        · have hdone := hr.mp rfl
          rw [Entries.removal_finished hdone] at hlater hput
          rw [Entries.removal_emptied hdone]
          have hopen₂ := (hopen₁.put (.directory name b .nil rest)).later hlater hfd₁
          have hn₂ : (Entries.directory name b .nil rest).lookup name = some (.directory b .nil) :=
            if_pos rfl
          have herase : (Entries.directory name b .nil rest).erase name = rest := if_pos rfl
          refine wp_bind_answer (hopen₂.respond_stat hn₂) ?_
          rw [requireSameIdentity, called, if_pos (by simp [FileStatus.sameIdentity, Node.status]),
            wp_pure']
          have hclosed := (hput.trans hlater).close (Nat.le_refl t.next)
          refine wp_close ?_
          rw [andThen_ok, wp_ofExcept, andThen_ok]
          have hopen₃ := (hopen.put (.directory name b .nil rest)).later hclosed hfd
          refine wp_bind_answer ((hopen₃.respond_rmdir hn₂).trans (by rw [herase])) ?_
          have hremoved := hclosed.put path rest
          rw [put_put] at hremoved
          refine wp_mono (ihRest (hopen₃.put rest)
            (Nat.lt_of_lt_of_le hfd hclosed.next) hdistinct.2.2 hrest) fun r t₄ ⟨hr, hlast⟩ ↦ ⟨hr, ?_⟩
          have hrestput := hremoved.put path (rest.removal who (frames + 1)).2
          rw [put_put] at hrestput
          exact hrestput.trans hlast
      · exact absurd ⟨howner, hmode⟩ hnot

/-! ### Both passes -/

/-- How the deletion of an open directory ends. -/
inductive TargetOutcome (who : Access) (frames : ℕ) (t : FileTree) (siblings : Entries) (name : String)
    (inside : Entries) : Except Exc Unit → FileTree → Prop
  | rejected (x : Exc) (t' : FileTree) (h : ¬ inside.Accepted who.user frames)
    (hroot : t'.root = t.root) : TargetOutcome who frames t siblings name inside (.error x) t'
  | stopped (x : Exc) (t' : FileTree) (h : inside.Accepted who.user frames)
    (hstopped : (inside.removal who frames).1 = false)
    (hroot : t'.root = (t.put ["projects", name] (inside.removal who frames).2).root) :
    TargetOutcome who frames t siblings name inside (.error x) t'
  | removed (t' : FileTree) (h : inside.Accepted who.user frames)
    (hfinished : (inside.removal who frames).1 = true)
    (hroot : t'.root = (t.put ["projects"] (siblings.erase name)).root) :
    TargetOutcome who frames t siblings name inside (.ok ()) t'

theorem wp_deleteTarget {projects target : Descriptor} {siblings : Entries}
    (hprojects : Opens who t projects ["projects"] a siblings) (hlt : projects < target)
    (htarget : Opens who t target ["projects", name] b inside) (hnext : target < t.next)
    (hn : siblings.lookup name = some (.directory b inside)) (hdistinct : siblings.Distinct) :
    wp (World who) (deleteTarget who.user (frames + 1) projects target name)
      (TargetOutcome who frames t siblings name inside) t := by
  have hinside := hdistinct.inside hn
  refine wp_bind_answer htarget.respond_fstat ?_
  rw [wp_bind, wp_tryFinally, wp_bind, validateTree_succ]
  refine wp_bind_answer htarget.respond_listdir ?_
  refine wp_mono (wp_validateEntries inside htarget hnext (fun _ _ ↦ rfl) hinside)
    fun r t₁ ⟨haccepted, hlater₁⟩ ↦ ?_
  rcases r with x | ⟨⟩
  · exact wp_close (.rejected x _ (fun h ↦ absurd (haccepted.mpr h) nofun) hlater₁.root)
  have haccepted := haccepted.mp rfl
  have htarget₁ := htarget.later hlater₁ hnext
  rw [andThen_ok, wp_bind, deleteTree_succ]
  refine wp_bind_answer htarget₁.respond_listdir ?_
  refine wp_mono (wp_deleteEntries inside htarget₁ (Nat.lt_of_lt_of_le hnext hlater₁.next) hinside
    haccepted) fun r t₂ ⟨hfinished, hlater₂⟩ ↦ ?_
  have hput := hlater₁.put ["projects", name] (inside.removal who frames).2
  rcases r with x | ⟨⟩
  · have hstopped : (inside.removal who frames).1 = false := by
      rw [← Bool.not_eq_true]
      exact fun h ↦ absurd (hfinished.mpr h) nofun
    exact wp_close (.stopped x _ haccepted hstopped (hlater₂.root.trans hput.root))
  have hfinished := hfinished.mp rfl
  -- nothing is left in the directory
  have hlater : Later (t.put ["projects"] (siblings.modify name fun _ ↦ .nil)) t₂ := by
    rw [Entries.removal_finished hfinished] at hput hlater₂
    rw [← hprojects.put_child]
    exact hput.trans hlater₂
  have hlt₂ : projects < t.next := Nat.lt_trans hlt hnext
  have hprojects₂ := (hprojects.put (siblings.modify name fun _ ↦ .nil)).later hlater hlt₂
  have hn₂ : (siblings.modify name fun _ ↦ .nil).lookup name = some (.directory b .nil) :=
    Entries.lookup_modify hn
  rw [andThen_ok]
  refine wp_bind_answer (hprojects₂.respond_stat hn₂) ?_
  rw [if_pos (by simp [FileStatus.sameIdentity, Node.status]), wp_pure']
  refine wp_close ?_
  rw [andThen_ok, wp_ofExcept, andThen_ok]
  have hprojects₃ := hprojects₂.close (Nat.ne_of_lt hlt)
  refine wp_bind_answer ((hprojects₃.respond_rmdir hn₂).trans (by rw [Entries.erase_modify])) ?_
  have hprojects₄ := hprojects₃.put (siblings.erase name)
  rw [wp_bind, wp_attempt]
  refine wp_respond (.stat projects name) ?_
  rw [hprojects₄.respond_stat_none (Entries.lookup_erase hdistinct)]
  refine .removed _ haccepted hfinished ?_
  have hroot := (hlater.put ["projects"] (siblings.erase name)).root
  rw [put_put] at hroot
  exact hroot

/-- Opening whatever there is of a name in an open directory. -/
theorem wp_openPrivateDirectoryAt_any (h : Opens who t fd path a es) (name : String) :
    wp (World who) (openPrivateDirectoryAt who.user (frames + 1) fd name) (fun r t' ↦
      (∃ b inside, es.lookup name = some (.directory b inside) ∧ IsPrivateDirectory who.user b
        ∧ r = .ok t.next ∧ t' = t.opening (path ++ [name]))
      ∨ (es.lookup name = none ∧ r = .error .fileNotFound ∧ t' = t)
      ∨ (∀ b inside, es.lookup name = some (.directory b inside) → ¬ IsPrivateDirectory who.user b)
        ∧ (∃ x, r = .error x ∧ x ≠ .fileNotFound) ∧ Later t t') t := by
  cases hn : es.lookup name with
  | none =>
    exact wp_bind_failure (h.respond_openDirectory_none hn) (.inr (.inl ⟨rfl, rfl, rfl⟩))
  | some n =>
    cases n with
    | leaf regular b =>
      refine wp_bind_failure (h.respond_openDirectory_leaf hn) (.inr (.inr ⟨?_, ?_, .refl t⟩))
      · intro _ _ heq
        cases heq
      · exact ⟨_, rfl, by decide⟩
    | directory b inside =>
      refine wp_mono (wp_openPrivateDirectoryAt h hn) fun r t' hr ↦ ?_
      rcases hr with ⟨hprivate, hr, ht⟩ | ⟨hnot, hr, hlater⟩
      · exact .inl ⟨b, inside, rfl, hprivate, hr, ht⟩
      · refine .inr (.inr ⟨fun b' inside' heq ↦ ?_, hr, hlater⟩)
        cases heq
        exact hnot

/-- Closing a descriptor in the end does nothing to the tree. -/
theorem wp_tryFinally_close {α : Type} {p : DirectoryProg α} {Q : Except Exc α → FileTree → Prop}
    (hQ : ∀ r t t', Q r t → t'.root = t.root → Q r t') (h : wp (World who) p Q t) :
    wp (World who) (p.tryFinally (DescriptorOp.close fd).perform) Q t := by
  rw [wp_tryFinally]
  refine wp_mono h fun r t' hr ↦ wp_close ?_
  rw [andThen_ok, wp_ofExcept]
  exact hQ r t' _ hr rfl

/-- The directory of a project, where it and the directories above it are private. -/
def HasTarget (user : ℕ) (t : FileTree) (name : String) (inside : Entries) : Prop :=
  ∃ a es b siblings c, t.root = some (.directory a es) ∧ IsPrivateDirectory user a
    ∧ es.lookup "projects" = some (.directory b siblings) ∧ IsPrivateDirectory user b
    ∧ siblings.lookup name = some (.directory c inside) ∧ IsPrivateDirectory user c

theorem HasTarget.eq {user : ℕ} {inside' : Entries} (h : HasTarget user t name inside)
    (h' : HasTarget user t name inside') : inside = inside' := by
  obtain ⟨a, es, b, siblings, c, hroot, -, hes, -, hn, -⟩ := h
  obtain ⟨a', es', b', siblings', c', hroot', -, hes', -, hn', -⟩ := h'
  cases hroot.symm.trans hroot'
  cases hes.symm.trans hes'
  cases hn.symm.trans hn'
  rfl

/-- How a deletion ends. -/
inductive SubtreeOutcome (who : Access) (limit : ℕ) (t : FileTree) (name : String) :
    Except Exc Unit → FileTree → Prop
  | absent (t' : FileTree) (habsent : t.find ["projects", name] = none) (hroot : t'.root = t.root) :
    SubtreeOutcome who limit t name (.ok ()) t'
  | rejected (x : Exc) (t' : FileTree)
    (h : ∀ frames inside, limit = frames + 1 → HasTarget who.user t name inside →
      ¬ inside.Accepted who.user frames)
    (hroot : t'.root = t.root) : SubtreeOutcome who limit t name (.error x) t'
  | stopped (x : Exc) (t' : FileTree) (frames : ℕ) (inside : Entries) (hlimit : limit = frames + 1)
    (htarget : HasTarget who.user t name inside) (h : inside.Accepted who.user frames)
    (hstopped : (inside.removal who frames).1 = false)
    (hroot : t'.root = (t.put ["projects", name] (inside.removal who frames).2).root) :
    SubtreeOutcome who limit t name (.error x) t'
  | removed (t' : FileTree) (frames : ℕ) (inside : Entries) (b : Attributes) (siblings : Entries)
    (hlimit : limit = frames + 1) (htarget : HasTarget who.user t name inside)
    (h : inside.Accepted who.user frames) (hfinished : (inside.removal who frames).1 = true)
    (hprojects : t.find ["projects"] = some (.directory b siblings))
    (hroot : t'.root = (t.put ["projects"] (siblings.erase name)).root) :
    SubtreeOutcome who limit t name (.ok ()) t'

theorem SubtreeOutcome.congr {limit : ℕ} {r r' : Except Exc Unit} {t₁ t₂ : FileTree}
    (h : SubtreeOutcome who limit t name r t₁) (hr : r = .ok () ↔ r' = .ok ())
    (hroot : t₂.root = t₁.root) : SubtreeOutcome who limit t name r' t₂ := by
  cases h with
  | absent _ habsent hroot' =>
    obtain rfl := hr.mp rfl
    exact .absent t₂ habsent (hroot.trans hroot')
  | rejected x _ h hroot' =>
    rcases r' with x' | ⟨⟩
    · exact .rejected x' t₂ h (hroot.trans hroot')
    · exact absurd (hr.mpr rfl) nofun
  | stopped x _ frames inside hlimit htarget h hstopped hroot' =>
    rcases r' with x' | ⟨⟩
    · exact .stopped x' t₂ frames inside hlimit htarget h hstopped (hroot.trans hroot')
    · exact absurd (hr.mpr rfl) nofun
  | removed _ frames inside b siblings hlimit htarget h hfinished hprojects hroot' =>
    obtain rfl := hr.mp rfl
    exact .removed t₂ frames inside b siblings hlimit htarget h hfinished hprojects
      (hroot.trans hroot')

/-- The deletion below the open directory of all projects. -/
def deleteBelowProjects (user limit : ℕ) (projects : Descriptor) (name : String) :
    DirectoryProg Unit := do
  match ← (openPrivateDirectoryAt user limit projects name).attempt with
  | .error .fileNotFound => pure ()
  | .error x => Prog.raise x
  | .ok target => deleteTarget user limit projects target name

/-- The deletion below the open root. -/
def deleteBelowRoot (user limit : ℕ) (root : Descriptor) (name : String) : DirectoryProg Unit := do
  match ← (openPrivateDirectoryAt user limit root "projects").attempt with
  | .error .fileNotFound => pure ()
  | .error x => Prog.raise x
  | .ok projects =>
    (deleteBelowProjects user limit projects name).tryFinally (DescriptorOp.close projects).perform

variable {t₁ : FileTree} {siblings : Entries} {projects root : Descriptor}

theorem wp_deleteBelowProjects (hroot : t.root = some (.directory a es))
    (ha : IsPrivateDirectory who.user a) (hes : es.lookup "projects" = some (.directory b siblings))
    (hprojects : Opens who t₁ projects ["projects"] b siblings) (hnext : projects < t₁.next)
    (hsame : t₁.root = t.root) (hdistinct : siblings.Distinct) :
    wp (World who) (deleteBelowProjects who.user (frames + 1) projects name)
      (SubtreeOutcome who (frames + 1) t name) t₁ := by
  have hb : IsPrivateDirectory who.user b := ⟨hprojects.own, hprojects.mode⟩
  have hfind (path : List String) : t.find path = t₁.find path := by
    rw [FileTree.find, FileTree.find, hsame]
  rw [deleteBelowProjects, wp_bind, wp_attempt]
  refine wp_mono (wp_openPrivateDirectoryAt_any hprojects name) fun r t₂ hr ↦ ?_
  rcases hr with ⟨c, inside, hn, hc, rfl, rfl⟩ | ⟨hn, rfl, rfl⟩ | ⟨hnot, ⟨x, rfl, hx⟩, hlater⟩
  · have htarget := hprojects.opening hn hc.1 hc.2
    have hprojects₂ := hprojects.later (Later.opening t₁ (["projects"] ++ [name])) hnext
    have hhas : HasTarget who.user t name inside := ⟨a, es, b, siblings, c, hroot, ha, hes, hb, hn, hc⟩
    refine wp_mono (wp_deleteTarget hprojects₂ hnext htarget (Nat.lt_succ_self _) hn hdistinct)
      fun r t₃ hr ↦ ?_
    cases hr with
    | rejected x _ h hroot' =>
      refine .rejected x _ ?_ (hroot'.trans hsame)
      rintro frames' inside' heq h'
      obtain rfl := Nat.succ.inj heq
      obtain rfl := h'.eq hhas
      exact h
    | stopped x _ h hstopped hroot' =>
      refine .stopped x _ frames inside rfl hhas h hstopped (hroot'.trans ?_)
      exact congrArg (Option.map _) hsame
    | removed _ h hfinished hroot' =>
      refine .removed _ frames inside b siblings rfl hhas h hfinished ?_ (hroot'.trans ?_)
      · exact (hfind _).trans hprojects.node
      · exact congrArg (Option.map _) hsame
  · refine .absent _ ((hfind _).trans ?_) hsame
    exact hprojects.find_child.trans hn
  · have hrejected : SubtreeOutcome who (frames + 1) t name (.error x) t₂ := by
      refine .rejected x t₂ ?_ (hlater.root.trans hsame)
      rintro frames' inside' - ⟨a', es', b', siblings', c, hroot', -, hes', -, hn, hc⟩
      cases hroot.symm.trans hroot'
      cases hes.symm.trans hes'
      exact absurd hc (hnot c inside' hn)
    rw [andThen_ok]
    split
    · next heq => exact absurd (Except.error.inj heq) hx
    · next heq => exact Except.error.inj heq ▸ hrejected
    · next heq => cases heq

theorem wp_deleteBelowRoot (hroot : t.root = some (.directory a es))
    (hopen : Opens who t₁ root [] a es) (hnext : root < t₁.next) (hsame : t₁.root = t.root)
    (hdistinct : es.Distinct) : wp (World who) (deleteBelowRoot who.user (frames + 1) root name)
      (SubtreeOutcome who (frames + 1) t name) t₁ := by
  have ha : IsPrivateDirectory who.user a := ⟨hopen.own, hopen.mode⟩
  rw [deleteBelowRoot, wp_bind, wp_attempt]
  refine wp_mono (wp_openPrivateDirectoryAt_any hopen "projects") fun r t₂ hr ↦ ?_
  rcases hr with ⟨b, siblings, hes, hb, rfl, rfl⟩ | ⟨hes, rfl, rfl⟩ | ⟨hnot, ⟨x, rfl, hx⟩, hlater⟩
  · refine wp_tryFinally_close (fun r t₁ t₂ h hroot ↦ h.congr .rfl hroot) ?_
    exact wp_deleteBelowProjects hroot ha hes (hopen.opening hes hb.1 hb.2) (Nat.lt_succ_self _)
      hsame (hdistinct.inside hes)
  · refine .absent _ ?_ hsame
    rw [FileTree.find, hroot, Option.bind_some, Node.find, hes, Option.bind_none]
  · have hrejected : SubtreeOutcome who (frames + 1) t name (.error x) t₂ := by
      refine .rejected x t₂ ?_ (hlater.root.trans hsame)
      rintro frames' inside' - ⟨a', es', b, siblings, c, hroot', -, hes, hb, -⟩
      cases hroot.symm.trans hroot'
      exact absurd hb (hnot b siblings hes)
    rw [andThen_ok]
    split
    · next heq => exact absurd (Except.error.inj heq) hx
    · next heq => exact Except.error.inj heq ▸ hrejected
    · next heq => cases heq

/-- Opening the root. -/
theorem wp_openPrivateDirectory (hroot : t.root = some (.directory a es)) :
    wp (World who) (openPrivateDirectory who.user (frames + 1)) (fun r t' ↦
      IsPrivateDirectory who.user a ∧ r = .ok t.next ∧ t' = t.opening []
        ∨ ¬ IsPrivateDirectory who.user a ∧ (∃ x, r = .error x ∧ x ≠ .fileNotFound) ∧ Later t t')
      t := by
  have hopen : t.respond who .openAnchor = t.openNode who [] a := by rw [respond, hroot]
  change wp (World who) (Prog.op _ >>= fun fd ↦ _) _ t
  cases hmay : who.may a 0o400 with
  | false =>
    refine wp_bind_failure (hopen.trans (openNode_error hmay)) (.inr ⟨?_, ?_⟩)
    · rintro ⟨howner, hmode⟩
      rw [(Access.may_private howner hmode).1] at hmay
      cases hmay
    · exact ⟨⟨_, rfl, by decide⟩, .refl t⟩
  | true =>
    refine wp_bind_answer (hopen.trans (openNode_ok hmay)) ?_
    have hnode : (t.opening []).find [] = some (.directory a es) := by
      rw [FileTree.find, show (t.opening []).root = _ from hroot, Option.bind_some, Node.find_nil]
    refine wp_mono (wp_requirePrivateDirectory (Function.update_self _ _ _) hnode) fun r t' hr ↦ ?_
    rcases hr with ⟨hprivate, rfl, rfl⟩ | ⟨hprivate, rfl, rfl⟩
    · exact .inl ⟨hprivate, rfl, rfl⟩
    · exact .inr ⟨hprivate, ⟨_, rfl, by decide⟩, (Later.opening t _).close (Nat.le_refl _)⟩

/-- How a deletion ends, whatever the tree is. -/
theorem wp_deleteProjectSubtree (limit : ℕ) (project : Uuid)
    (hdistinct : ∀ n, t.root = some n → n.Distinct) :
    wp (World who) (deleteProjectSubtree who.user limit project)
      (SubtreeOutcome who limit t project.str) t := by
  rw [deleteProjectSubtree, wp_bind, wp_attempt]
  cases limit with
  | zero => exact .rejected _ _ (fun _ _ heq ↦ by cases heq) rfl
  | succ frames =>
    cases hroot : t.root with
    | none =>
      have hopen : t.respond who .openAnchor = (.error .fileNotFound, t) := by rw [respond, hroot]
      refine wp_bind_failure hopen (.absent _ ?_ rfl)
      rw [FileTree.find, hroot, Option.bind_none]
    | some n =>
      cases n with
      | leaf regular a =>
        have hopen : t.respond who .openAnchor = (.error .osError, t) := by rw [respond, hroot]
        refine wp_bind_failure hopen (.rejected _ _ ?_ rfl)
        rintro _ _ - ⟨_, _, _, _, _, hroot', -⟩
        cases hroot.symm.trans hroot'
      | directory a es =>
        refine wp_mono (wp_openPrivateDirectory hroot) fun r t₁ hr ↦ ?_
        rw [andThen_ok]
        rcases hr with ⟨ha, rfl, rfl⟩ | ⟨hnot, ⟨x, rfl, hx⟩, hlater⟩
        · have hopen : Opens who (t.opening []) t.next [] a es := by
            refine ⟨Function.update_self _ _ _, ?_, ha.1, ha.2⟩
            rw [FileTree.find, show (t.opening []).root = _ from hroot, Option.bind_some,
              Node.find_nil]
          refine wp_tryFinally_close (fun r t₁ t₂ h hroot ↦ h.congr .rfl hroot) ?_
          rw [wp_tryCatch]
          refine wp_mono (wp_deleteBelowRoot hroot hopen (Nat.lt_succ_self _) rfl (hdistinct _ hroot))
            fun r t₂ hr ↦ ?_
          rcases r with x | ⟨⟩
          · rw [orElse_error]
            split <;> exact hr.congr ⟨fun h ↦ (by cases h), fun h ↦ by cases h⟩ rfl
          · exact hr
        · have hrejected : SubtreeOutcome who (frames + 1) t project.str (.error x) t₁ := by
            refine .rejected x t₁ ?_ hlater.root
            rintro _ _ - ⟨a', _, _, _, _, hroot', ha, -⟩
            cases hroot.symm.trans hroot'
            exact absurd ha hnot
          split
          · next heq => exact absurd (Except.error.inj heq) hx
          · next heq => exact Except.error.inj heq ▸ hrejected
          · next heq => cases heq

end Walks

end FileSecretStore

/-! ## All or nothing -/

/-- Every file can be opened and a frame is left for it. -/
def Entries.Removable (who : Access) : ℕ → Entries → Prop
  | _, .nil => True
  | frames, .leaf _ _ a rest => (0 < frames ∧ who.may a 0o400) ∧ rest.Removable who frames
  | 0, .directory _ _ _ _ => False
  | frames + 1, .directory _ _ inside rest =>
    inside.Removable who frames ∧ rest.Removable who (frames + 1)

/-- What would be removed first is a file for which that is not so. -/
def Entries.StopsAtOnce (who : Access) : ℕ → Entries → Prop
  | _, .nil => False
  | frames, .leaf _ _ a _ => ¬ (0 < frames ∧ who.may a 0o400)
  | 0, .directory _ _ _ _ => True
  | frames + 1, .directory _ _ inside _ => inside.StopsAtOnce who frames

/-- How many entries there are, at any depth. -/
def Entries.size : Entries → ℕ
  | .nil => 0
  | .leaf _ _ _ rest => rest.size + 1
  | .directory _ _ inside rest => inside.size + rest.size + 1

section Removals

variable {who : Access} {es : Entries}

theorem Entries.removal_fst_iff : ∀ {frames : ℕ},
    (es.removal who frames).1 = true ↔ es.Removable who frames := by
  induction es with
  | nil => exact ⟨fun _ ↦ trivial, fun _ ↦ rfl⟩
  | leaf name regular a rest ih =>
    intro frames
    rw [removal, Removable]
    split
    · next hmay => rw [ih, and_iff_right hmay]
    · next hmay => exact ⟨nofun, fun h ↦ absurd h.1 hmay⟩
  | directory name a inside rest ihInside ihRest =>
    intro frames
    cases frames with
    | zero => exact ⟨nofun, False.elim⟩
    | succ frames =>
      rw [Removable, ← ihInside, ← ihRest]
      cases hinside : (inside.removal who frames).1 with
      | true => rw [removal_emptied hinside, and_iff_right rfl]
      | false => rw [removal_stopped hinside]; exact ⟨nofun, fun h ↦ nomatch h.1⟩

theorem Entries.size_removal_le : ∀ {frames : ℕ}, (es.removal who frames).2.size ≤ es.size := by
  induction es with
  | nil => exact Nat.le_refl _
  | leaf name regular a rest ih =>
    intro frames
    rw [removal]
    split
    · exact Nat.le_succ_of_le ih
    · exact Nat.le_refl _
  | directory name a inside rest ihInside ihRest =>
    intro frames
    cases frames with
    | zero => exact Nat.le_refl _
    | succ frames =>
      have hinside : (inside.removal who frames).2.size ≤ inside.size := ihInside
      have hrest : (rest.removal who (frames + 1)).2.size ≤ rest.size := ihRest
      cases hdone : (inside.removal who frames).1 with
      | true =>
        rw [removal_emptied hdone, size]
        omega
      | false =>
        rw [removal_stopped hdone, size, size]
        omega

theorem Entries.StopsAtOnce.removal_fst : ∀ {frames : ℕ}, es.StopsAtOnce who frames →
    (es.removal who frames).1 = false := by
  induction es with
  | nil =>
    intro frames h
    rw [StopsAtOnce] at h
    exact h.elim
  | leaf name regular a rest _ =>
    intro frames h
    rw [StopsAtOnce] at h
    rw [removal, if_neg h]
  | directory name a inside rest ihInside _ =>
    intro frames h
    cases frames with
    | zero => rfl
    | succ frames => rw [removal_stopped (ihInside h)]

/-- Nothing has been removed exactly when the first thing could not be. -/
theorem Entries.removal_snd_eq_iff : ∀ {frames : ℕ}, (es.removal who frames).1 = false →
    ((es.removal who frames).2 = es ↔ es.StopsAtOnce who frames) := by
  induction es with
  | nil => exact nofun
  | leaf name regular a rest ih =>
    intro frames h
    rw [removal, StopsAtOnce]
    split
    · next hmay =>
      refine ⟨fun heq ↦ ?_, fun hnot ↦ absurd hmay hnot⟩
      have hle : (rest.removal who frames).2.size ≤ rest.size := size_removal_le
      rw [heq, size] at hle
      omega
    · next hmay => exact ⟨fun _ ↦ hmay, fun _ ↦ rfl⟩
  | directory name a inside rest ihInside ihRest =>
    intro frames h
    cases frames with
    | zero => exact ⟨fun _ ↦ trivial, fun _ ↦ rfl⟩
    | succ frames =>
      rw [StopsAtOnce]
      cases hdone : (inside.removal who frames).1 with
      | true =>
        rw [removal_emptied hdone]
        refine ⟨fun heq ↦ ?_, fun hstops ↦ ?_⟩
        · have hle : (rest.removal who (frames + 1)).2.size ≤ rest.size := size_removal_le
          rw [heq, size] at hle
          omega
        · rw [hstops.removal_fst] at hdone
          cases hdone
      | false =>
        rw [removal_stopped hdone, ← ihInside hdone]
        simp

end Removals

namespace FileSecretStore

open FileTree

/-- The tree without the directory of a project. -/
def withoutProject (t : FileTree) (name : String) : Option Node :=
  match t.find ["projects"] with
  | some (.directory _ siblings) => (t.put ["projects"] (siblings.erase name)).root
  | _ => t.root

/-- The whole directory of the project is gone and nothing else, or nothing has changed. -/
def AllOrNothing (t : FileTree) (name : String) (r : Except Exc Unit) (t' : FileTree) : Prop :=
  r = .ok () ∧ t'.root = withoutProject t name ∨ (∃ x, r = .error x) ∧ t'.root = t.root

/-- The deletion in a tree. -/
def runDeletion (who : Access) (limit : ℕ) (project : Uuid) (t : FileTree) :
    Except Exc Unit × FileTree :=
  (exec (fun _ t o ↦ ((), t.respond who o)) (deleteProjectSubtree who.user limit project) () t).2

/-- What is accepted can be removed, or what comes first cannot. -/
def Deletable (who : Access) (limit : ℕ) (t : FileTree) (name : String) : Prop :=
  ∀ frames inside, limit = frames + 1 → HasTarget who.user t name inside →
    inside.Accepted who.user frames → inside.Removable who frames ∨ inside.StopsAtOnce who frames

section Trees

variable {who : Access} {limit : ℕ} {t t' : FileTree} {name : String} {r : Except Exc Unit}

theorem withoutProject_of_absent (h : t.find ["projects", name] = none) :
    withoutProject t name = t.root := by
  cases hroot : t.root with
  | none => rw [withoutProject, FileTree.find, hroot, Option.bind_none]
  | some root =>
    rw [FileTree.find, hroot, Option.bind_some] at h
    rw [withoutProject, FileTree.find, hroot, Option.bind_some]
    split
    · next b siblings hprojects =>
      have hchild : root.find (["projects"] ++ [name]) = siblings.lookup name :=
        Node.find_child hprojects
      rw [Entries.erase_of_lookup_eq_none (hchild.symm.trans h), FileTree.put, hroot,
        Option.map_some, Node.put_self hprojects]
    · rfl

theorem HasTarget.find {user : ℕ} {inside : Entries} (h : HasTarget user t name inside) :
    ∃ c, t.find ["projects", name] = some (.directory c inside) := by
  obtain ⟨a, es, b, siblings, c, hroot, -, hes, -, hn, -⟩ := h
  refine ⟨c, ?_⟩
  rw [FileTree.find, hroot, Option.bind_some, Node.find, hes, Option.bind_some, Node.find, hn,
    Option.bind_some, Node.find_nil]

theorem SubtreeOutcome.allOrNothing_iff (h : SubtreeOutcome who limit t name r t') :
    AllOrNothing t name r t' ↔ Deletable who limit t name := by
  cases h with
  | absent _ habsent hroot =>
    refine iff_of_true (.inl ⟨rfl, hroot.trans (withoutProject_of_absent habsent).symm⟩) ?_
    intro frames inside _ htarget
    obtain ⟨c, hc⟩ := htarget.find
    rw [habsent] at hc
    cases hc
  | rejected x _ h hroot =>
    exact iff_of_true (.inr ⟨⟨x, rfl⟩, hroot⟩) fun frames inside hlimit htarget haccepted ↦
      absurd haccepted (h frames inside hlimit htarget)
  | stopped x _ frames inside hlimit htarget h hstopped hroot =>
    obtain ⟨c, hc⟩ := htarget.find
    obtain ⟨root, hsome, hfind⟩ := Option.bind_eq_some_iff.mp hc
    have hsame : t'.root = t.root ↔ inside.StopsAtOnce who frames := by
      rw [← Entries.removal_snd_eq_iff hstopped, hroot, FileTree.put, hsome, Option.map_some]
      refine ⟨fun heq ↦ ?_, fun heq ↦ by rw [heq, Node.put_self hfind]⟩
      have hput := Node.find_put (inside.removal who frames).2 hfind
      rw [Option.some.inj heq, hfind] at hput
      exact ((Node.directory.inj (Option.some.inj hput)).2).symm
    have hnot : ¬ inside.Removable who frames := by
      rw [← Entries.removal_fst_iff, hstopped]
      intro h
      cases h
    constructor
    · rintro (⟨hok, -⟩ | ⟨-, hkept⟩)
      · cases hok
      · intro frames' inside' hlimit' htarget' _
        obtain rfl := htarget.eq htarget'
        obtain rfl := Nat.succ.inj (hlimit.symm.trans hlimit')
        exact .inr (hsame.mp hkept)
    · intro hdeletable
      rcases hdeletable frames inside hlimit htarget h with hremovable | hstops
      · exact absurd hremovable hnot
      · exact .inr ⟨⟨x, rfl⟩, hsame.mpr hstops⟩
  | removed _ frames inside b siblings hlimit htarget h hfinished hprojects hroot =>
    refine iff_of_true (.inl ⟨rfl, ?_⟩) fun frames' inside' hlimit' htarget' _ ↦ ?_
    · rw [withoutProject, hprojects, hroot]
    · obtain rfl := htarget.eq htarget'
      obtain rfl := Nat.succ.inj (hlimit.symm.trans hlimit')
      exact .inl (Entries.removal_fst_iff.mp hfinished)

end Trees

/-- A deletion removes all of a project or changes nothing, exactly when each file that the first pass
accepts can be opened by the second, or the file that comes first cannot. -/
theorem deleteProjectSubtree_allOrNothing_iff (who : Access) (limit : ℕ) (project : Uuid)
    (t : FileTree) (hdistinct : ∀ n, t.root = some n → n.Distinct) :
    AllOrNothing t project.str (runDeletion who limit project t).1 (runDeletion who limit project t).2
      ↔ Deletable who limit t project.str := by
  let handler : Handler Unit FileTree DescriptorOp DescriptorOp.Ans Exc := fun _ t o ↦
    ((), t.respond who o)
  let result := exec handler (deleteProjectSubtree who.user limit project) () t
  have hends : Ends (fun t o r t' ↦ t.respond who o = (r, t'))
      (deleteProjectSubtree who.user limit project) t result.1 result.2.1 result.2.2 :=
    exec_ends (fun _ _ _ ↦ rfl) _ () t
  exact (wp_ends (wp_deleteProjectSubtree limit project hdistinct) hends).allOrNothing_iff

/-- A user that is not privileged. -/
def sampleAccess : Access := ⟨1000, false, fun _ _ ↦ false⟩

/-- A store with one project, which has these entries. -/
def storeOf (inside : Entries) : FileTree where
  root := some (.directory ⟨1000, 0o700, 1, 1⟩ (.directory "projects" ⟨1000, 0o700, 1, 2⟩
    (.directory (Uuid.ofNat 7).str ⟨1000, 0o700, 1, 3⟩ inside .nil) .nil))
  descriptors _ := none
  next := 0

theorem storeOf_distinct {inside : Entries} (h : inside.Distinct) :
    ∀ n, (storeOf inside).root = some n → n.Distinct := by
  intro n hn
  obtain rfl := Option.some.inj hn
  exact ⟨List.not_mem_nil, ⟨List.not_mem_nil, h, trivial⟩, trivial⟩

/-- A secret that its owner may read. -/
def readableSecret : Entries := .leaf "v1.secret" true ⟨1000, 0o400, 1, 4⟩ .nil

theorem deleteProjectSubtree_allOrNothing_iff_sample :
    Deletable sampleAccess 9 (storeOf readableSecret) (Uuid.ofNat 7).str := by
  have hinside : readableSecret.Distinct := ⟨List.not_mem_nil, trivial⟩
  have hdistinct := storeOf_distinct hinside
  refine (deleteProjectSubtree_allOrNothing_iff sampleAccess 9 (.ofNat 7) _ hdistinct).mp (.inl ?_)
  exact ⟨by decide, by decide +kernel⟩

/-- A secret that nobody may read, after one that its owner may. -/
def unreadableSecond : Entries :=
  .leaf "v1.secret" true ⟨1000, 0o400, 1, 4⟩ (.leaf "v2.secret" true ⟨1000, 0, 1, 5⟩ .nil)

/-- The first pass accepts a file that the second cannot open. -/
theorem not_deleteProjectSubtree_allOrNothing : ¬ ∀ (who : Access) (limit : ℕ) (project : Uuid)
    (t : FileTree), (∀ n, t.root = some n → n.Distinct) → AllOrNothing t project.str
      (runDeletion who limit project t).1 (runDeletion who limit project t).2 := by
  intro hclaim
  have hinside : unreadableSecond.Distinct := ⟨by decide, List.not_mem_nil, trivial⟩
  have hdistinct := storeOf_distinct hinside
  have hraised : (runDeletion sampleAccess 9 (.ofNat 7) (storeOf unreadableSecond)).1
      = .error .secretStore := by decide
  have hleft : (runDeletion sampleAccess 9 (.ofNat 7) (storeOf unreadableSecond)).2.root
      = (storeOf (.leaf "v2.secret" true ⟨1000, 0, 1, 5⟩ .nil)).root := by decide
  rcases hclaim sampleAccess 9 (.ofNat 7) _ hdistinct with ⟨hok, -⟩ | ⟨-, hkept⟩
  · rw [hraised] at hok
    cases hok
  · rw [hleft] at hkept
    exact absurd hkept (by decide)

end FileSecretStore

end Heimdall
