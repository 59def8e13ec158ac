import Heimdall.Secrets.Store

/-!
# Creating secrets

What a run of `create` leaves behind. However it ends, and wherever it stops, every file is still
there with its content and only the file of the version may be new (`create_keeps`). When it returns,
that file is accepted under the fingerprint it returns (`create_spec`). On a disk that does not fail
it returns whenever the file is new or has what is asked for (`create_succeeds`).
-/

namespace Heimdall

open Effect

/-- The world of a store. -/
abbrev SecretWorld : Setting SecretFiles SecretOp SecretOp.Ans Exc :=
  .alone SecretOp.Step fun _ _ _ _ ↦ True

section Runs

variable {files : SecretFiles} {target : List String} {payload : List UInt8}

/-- When there is no file yet, a write that returns has written it. -/
theorem writeOnce_writes (h : files.lookup (.file target) = none) :
    wp SecretWorld (writeOnce target payload) (fun r files' ↦ r = .ok () →
      files'.lookup (.file target) = some ⟨0o400, payload⟩) files := by
  rw [writeOnce, wp_bind, SecretOp.perform, wp_op_alone]
  refine fun r files₁ hopen ↦ ⟨trivial, ?_⟩
  rcases r with x | n
  · exact nofun
  obtain ⟨-, rfl⟩ := hopen
  rw [andThen_ok, wp_bind, SecretOp.perform, wp_op_alone]
  refine fun r files₂ hwrite ↦ ⟨trivial, ?_⟩
  rcases r with x | ⟨⟩
  · exact nofun
  obtain rfl : files₂ = _ := hwrite
  generalize hfiles : (files.insert (.temporary target n) ⟨0o400, []⟩).insert (.temporary target n)
    ⟨0o400, payload⟩ = files₂
  have hnone : files₂.lookup (.file target) = none := by
    rw [← hfiles, AList.lookup_insert_ne (by simp), AList.lookup_insert_ne (by simp), h]
  have htemporary : files₂.lookup (.temporary target n) = some ⟨0o400, payload⟩ := by
    rw [← hfiles, AList.lookup_insert]
  rw [andThen_ok, wp_bind, wp_tryFinally, wp_tryCatch, SecretOp.perform, wp_op_alone]
  refine fun r files₃ hlink ↦ ⟨trivial, ?_⟩
  rcases r with x | ⟨⟩
  · -- the name is free, so the link fails only with the disk
    have hx : x ≠ .fileExists := by
      rintro rfl
      have hsome : (files₂.lookup (.file target)).isSome := hlink.1
      rw [hnone] at hsome
      cases hsome
    rw [orElse_error]
    split
    · exact absurd rfl hx
    · rw [wp_raise, SecretOp.perform, wp_op_alone]
      refine fun r files₄ _ ↦ ⟨trivial, ?_⟩
      rcases r with x | ⟨⟩ <;> exact nofun
  · obtain ⟨-, f, hf, rfl⟩ := hlink
    obtain rfl := Option.some.inj (htemporary.symm.trans hf)
    rw [orElse_ok, SecretOp.perform, wp_op_alone]
    refine fun r files₄ hunlink ↦ ⟨trivial, ?_⟩
    rcases r with x | ⟨⟩
    · exact nofun
    obtain rfl : files₄ = _ := hunlink
    rw [andThen_ok, wp_ofExcept, andThen_ok, SecretOp.perform, wp_op_alone]
    refine fun r files₅ hchmod ↦ ⟨trivial, ?_⟩
    rcases r with x | ⟨⟩
    · exact nofun
    obtain ⟨f, hf', rfl⟩ := hchmod
    rw [AList.lookup_erase_ne (by simp), AList.lookup_insert] at hf'
    obtain rfl := Option.some.inj hf'
    exact fun _ ↦ AList.lookup_insert _

/-- What `create` returns: a file the store accepts, and the value it was given when the file is new. -/
structure SecretFiles.Stored (files files' : SecretFiles) (target : List String) (version : ℕ)
    (value : Option String) (stored : StoredSecret) : Prop where
  version : stored.version = version
  reference : stored.reference = PosixPath.asPosix target
  file : ∃ f, files'.lookup (.file target) = some f ∧ f.isPrivate
    ∧ Sha256.hexdigest f.payload = stored.fingerprint
    ∧ ∀ v, value = some v → files.lookup (.file target) = none → f.payload = Utf8.encode v.toList

theorem secretValue_spec (value : Option String) :
    wp SecretWorld (secretValue value) (fun r files' ↦ files' = files ∧ ∀ s, r = .ok s →
      ∀ v, value = some v → s = v) files := by
  rcases value with - | v
  · rw [secretValue, SecretOp.perform, wp_op_alone]
    refine fun r files' htoken ↦ ⟨trivial, ?_⟩
    rcases r with x | token
    · exact ⟨htoken.2, nofun⟩
    · exact ⟨htoken, nofun⟩
  · rw [secretValue, wp_pure']
    refine ⟨rfl, fun s hs v hv ↦ ?_⟩
    obtain rfl := Except.ok.inj hs
    exact Option.some.inj hv

theorem storeVersion_spec (given : Bool) : wp SecretWorld (storeVersion target payload given)
    (fun r files' ↦ ∀ fingerprint, r = .ok fingerprint → ∃ f, files'.lookup (.file target) = some f
      ∧ f.isPrivate ∧ Sha256.hexdigest f.payload = fingerprint
      ∧ (files.lookup (.file target) = none → f.payload = payload)) files := by
  rw [storeVersion, wp_bind, SecretOp.perform, wp_op_alone]
  refine fun r files₁ hexists ↦ ⟨trivial, ?_⟩
  rcases r with x | found
  · exact nofun
  obtain ⟨hfound, rfl⟩ := hexists
  rw [andThen_ok]
  cases found with
  | true =>
    rw [if_pos rfl, wp_bind, SecretOp.perform, wp_op_alone]
    refine fun r files₂ hread ↦ ⟨trivial, ?_⟩
    rcases r with x | existing
    · exact nofun
    obtain ⟨hread, rfl⟩ := hread
    obtain ⟨f, hf, hprivate, rfl⟩ := SecretFiles.readPrivateFile_ok hread
    rw [andThen_ok]
    split
    · exact nofun
    · intro fingerprint hfingerprint
      obtain rfl := Except.ok.inj hfingerprint
      exact ⟨f, hf, hprivate, rfl, fun hnone ↦ by rw [hf] at hnone; cases hnone⟩
  | false =>
    have hnone : files₁.lookup (.file target) = none := Option.isNone_iff_eq_none.mp (Option.isSome_eq_false_iff.mp hfound.symm)
    rw [if_neg (by simp), wp_bind]
    refine wp_mono (writeOnce_writes hnone) fun r files₂ hwrite ↦ ?_
    rcases r with x | ⟨⟩
    · exact nofun
    intro fingerprint hfingerprint
    obtain rfl := Except.ok.inj hfingerprint
    exact ⟨_, hwrite rfl, PrivateFile.isPrivate_ownerRead _, rfl, fun _ ↦ rfl⟩

variable {path : List String} {version : ℕ} {value : Option String}

theorem create_spec (hpath : ∀ part ∈ path, PosixPath.IsPart part) (hne : path ≠ []) :
    wp SecretWorld (FileSecretStore.create (PosixPath.asPosix path) version value)
      (fun r files' ↦ ∀ stored, r = .ok stored →
        files.Stored files' (path ++ [versionName version]) version value stored) files := by
  rw [FileSecretStore.create, safeRelative_asPosix hpath hne, wp_bind, wp_ofExcept, andThen_ok,
    wp_bind, SecretOp.perform, wp_op_alone]
  refine fun r files₁ hroot ↦ ⟨trivial, ?_⟩
  rcases r with x | ⟨⟩
  · exact nofun
  obtain rfl : files₁ = files := hroot
  rw [andThen_ok, wp_bind, SecretOp.perform, wp_op_alone]
  refine fun r files₂ hdirectory ↦ ⟨trivial, ?_⟩
  rcases r with x | ⟨⟩
  · exact nofun
  obtain rfl : files₂ = files₁ := hdirectory
  rw [andThen_ok, wp_bind]
  refine wp_mono (secretValue_spec value) fun r files₃ ⟨hfiles, hvalue⟩ ↦ ?_
  subst hfiles
  rcases r with x | s
  · exact nofun
  rw [andThen_ok, wp_bind]
  refine wp_mono (storeVersion_spec value.isSome) fun r files₄ hstored ↦ ?_
  rcases r with x | fingerprint
  · exact nofun
  intro stored heq
  obtain rfl := Except.ok.inj heq
  obtain ⟨f, hf, hprivate, hfingerprint, hnew⟩ := hstored fingerprint rfl
  refine ⟨rfl, rfl, f, hf, hprivate, hfingerprint, fun v hv hnone ↦ ?_⟩
  rw [hnew hnone, hvalue s rfl v hv]

/-! ### Files that stay -/

/-- The operations that write no other file than the target. -/
def OnlyWrites (target : List String) (o : SecretOp) : Prop := o.Targets ⊆ {target}

theorem uses_perform {o : SecretOp} (h : o.Targets ⊆ {target}) :
    o.perform.Uses (OnlyWrites target) := Prog.uses_op.mpr h

theorem uses_writeOnce : (writeOnce target payload).Uses (OnlyWrites target) := by
  have hlink (n : ℕ) : (SecretOp.link target n).perform.Uses (OnlyWrites target) :=
    uses_perform (Set.Subset.refl _)
  refine (uses_perform (Set.empty_subset _)).bind fun n ↦ ?_
  refine (uses_perform (Set.empty_subset _)).bind fun _ ↦ ?_
  refine Prog.Uses.bind (Prog.Uses.tryFinally ((hlink n).tryCatch fun x ↦ ?_)
    (uses_perform (Set.empty_subset _))) fun _ ↦ uses_perform (Set.Subset.refl _)
  split
  · exact Prog.uses_pure' _
  · exact Prog.uses_raise _

theorem uses_storeVersion (given : Bool) :
    (storeVersion target payload given).Uses (OnlyWrites target) := by
  refine (uses_perform (Set.empty_subset _)).bind fun found ↦ ?_
  split
  · refine (uses_perform (Set.empty_subset _)).bind fun existing ↦ ?_
    split
    · exact Prog.uses_raise _
    · exact Prog.uses_pure' _
  · exact uses_writeOnce.bind fun _ ↦ Prog.uses_pure' _

theorem uses_create (hpath : ∀ part ∈ path, PosixPath.IsPart part) (hne : path ≠ []) :
    (FileSecretStore.create (PosixPath.asPosix path) version value).Uses
      (OnlyWrites (path ++ [versionName version])) := by
  have hbind {α : Type} (f : List String → SecretProg α) :
      (Prog.ofExcept (.ok path) >>= f) = f path := rfl
  rw [FileSecretStore.create, safeRelative_asPosix hpath hne, hbind]
  refine (uses_perform (Set.empty_subset _)).bind fun _ ↦ ?_
  refine (uses_perform (Set.empty_subset _)).bind fun _ ↦ ?_
  refine Prog.Uses.bind ?_ fun s ↦ (uses_storeVersion _).bind fun _ ↦ Prog.uses_pure' _
  cases value with
  | none => exact uses_perform (Set.empty_subset _)
  | some v => exact Prog.uses_pure' _

/-- However `create` ends, and wherever it stops, the files are still there. -/
theorem create_keeps (hpath : ∀ part ∈ path, PosixPath.IsPart part) (hne : path ≠ []) :
    wp (.alone SecretOp.Step fun _ _ _ files' ↦ files.Keeps files'
        ∧ SecretFiles.Writes {path ++ [versionName version]} files files')
      (FileSecretStore.create (PosixPath.asPosix path) version value)
      (fun r files' ↦ (files.Keeps files'
        ∧ SecretFiles.Writes {path ++ [versionName version]} files files')
        ∧ ∀ stored, r = .ok stored →
          files.Stored files' (path ++ [versionName version]) version value stored) files := by
  refine wp_growing (R := fun a b ↦ a.Keeps b ∧ SecretFiles.Writes _ a b)
    (fun a b c hab hbc ↦ ⟨hab.1.trans hbc.1, ?_⟩) (fun a o r b ho hstep ↦ ⟨hstep.keeps, ?_⟩)
    (uses_create hpath hne) ⟨.refl files, .refl files⟩ (create_spec hpath hne)
  · exact fun path hpath ↦ (hbc.2 path hpath).trans (hab.2 path hpath)
  · exact fun path hpath ↦ hstep.writes path fun hmem ↦ hpath (ho hmem)

/-! ### A disk that does not fail -/

/-- The world of a store whose disk does not fail. -/
abbrev SoundSecretWorld : Setting SecretFiles SecretOp SecretOp.Ans Exc :=
  .alone SecretOp.Sound fun _ _ _ _ ↦ True

theorem wp_sound {o : SecretOp} {Q : Except Exc o.Ans → SecretFiles → Prop}
    (hrefused : ¬ o.Refused files)
    (h : ∀ a files', SecretOp.Step files o (.ok a) files' → Q (.ok a) files') :
    wp SoundSecretWorld o.perform Q files := by
  rw [SecretOp.perform, wp_op_alone]
  rintro r files' ⟨hstep, hsound⟩
  rcases r with x | a
  · exact absurd (hsound x rfl) hrefused
  · exact ⟨trivial, h a files' hstep⟩

/-- There is no such file yet, or it has what is asked for. -/
def SecretFiles.Free (files : SecretFiles) (target : List String) (value : Option String) : Prop :=
  ∀ f, files.lookup (.file target) = some f → f.isPrivate
    ∧ ∀ v, value = some v → f.payload = Utf8.encode v.toList

theorem writeOnce_succeeds (h : files.lookup (.file target) = none) :
    wp SoundSecretWorld (writeOnce target payload) (fun r _ ↦ r = .ok ()) files := by
  rw [writeOnce, wp_bind]
  refine wp_sound id fun n files₁ hopen ↦ ?_
  obtain ⟨-, rfl⟩ := hopen
  rw [andThen_ok, wp_bind]
  refine wp_sound id fun _ files₂ hwrite ↦ ?_
  obtain rfl : files₂ = _ := hwrite
  rw [andThen_ok, wp_bind, wp_tryFinally, wp_tryCatch]
  refine wp_sound (fun hrefused ↦ ?_) fun _ files₃ hlink ↦ ?_
  · rw [SecretOp.Refused, AList.lookup_insert_ne (by simp), AList.lookup_insert_ne (by simp), h,
      AList.lookup_insert] at hrefused
    rcases hrefused with hsome | hmissing
    · cases hsome
    · cases hmissing
  obtain ⟨-, f, -, rfl⟩ := hlink
  rw [orElse_ok]
  refine wp_sound id fun _ files₄ hunlink ↦ ?_
  obtain rfl : files₄ = _ := hunlink
  rw [andThen_ok, wp_ofExcept, andThen_ok]
  refine wp_sound (fun hmissing ↦ ?_) fun _ _ _ ↦ rfl
  rw [SecretOp.Refused, AList.lookup_erase_ne (by simp), AList.lookup_insert] at hmissing
  cases hmissing

theorem storeVersion_succeeds {s : String} (hvalue : ∀ v, value = some v → s = v)
    (hfree : files.Free target value) :
    wp SoundSecretWorld (storeVersion target (Utf8.encode s.toList) value.isSome)
      (fun r _ ↦ ∃ fingerprint, r = .ok fingerprint) files := by
  rw [storeVersion, wp_bind]
  refine wp_sound id fun found files₁ hexists ↦ ?_
  obtain ⟨hfound, rfl⟩ := hexists
  rw [andThen_ok]
  cases hlookup : files₁.lookup (.file target) with
  | none =>
    rw [hfound, hlookup, if_neg (by simp), wp_bind]
    refine wp_mono (writeOnce_succeeds hlookup) fun r files₂ hr ↦ ?_
    subst hr
    exact ⟨_, rfl⟩
  | some f =>
    obtain ⟨hprivate, hpayload⟩ := hfree f hlookup
    have hread := SecretFiles.readPrivateFile_of_lookup hlookup hprivate
    rw [hfound, hlookup, if_pos (by simp), wp_bind]
    refine wp_sound (fun hrefused ↦ hrefused _ hread) fun existing files₂ hstep ↦ ?_
    obtain ⟨hexisting, rfl⟩ := hstep
    obtain rfl := Except.ok.inj (hread.symm.trans hexisting)
    rw [andThen_ok, if_neg]
    · exact ⟨_, rfl⟩
    · rintro ⟨hne, hsome⟩
      obtain ⟨v, hv⟩ := Option.isSome_iff_exists.mp hsome
      exact hne (by rw [hpayload v hv, hvalue v hv])

/-- On a disk that does not fail, a version is created when it is new or has what is asked for. -/
theorem create_succeeds (hpath : ∀ part ∈ path, PosixPath.IsPart part) (hne : path ≠ [])
    (hfree : files.Free (path ++ [versionName version]) value) :
    wp SoundSecretWorld (FileSecretStore.create (PosixPath.asPosix path) version value)
      (fun r _ ↦ ∃ stored, r = .ok stored) files := by
  rw [FileSecretStore.create, safeRelative_asPosix hpath hne, wp_bind, wp_ofExcept, andThen_ok,
    wp_bind]
  refine wp_sound id fun _ files₁ hroot ↦ ?_
  obtain rfl : files₁ = files := hroot
  rw [andThen_ok, wp_bind]
  refine wp_sound id fun _ files₂ hdirectory ↦ ?_
  obtain rfl : files₂ = files₁ := hdirectory
  have hvalue : wp SoundSecretWorld (secretValue value) (fun r files' ↦ files' = files₂
      ∧ ∃ s, r = .ok s ∧ ∀ v, value = some v → s = v) files₂ := by
    rcases value with - | v
    · exact wp_sound id fun token files' htoken ↦ ⟨htoken, token, rfl, nofun⟩
    · exact ⟨rfl, v, rfl, fun _ hv ↦ Option.some.inj hv⟩
  rw [andThen_ok, wp_bind]
  refine wp_mono hvalue fun r files₃ ⟨hfiles, s, hr, hs⟩ ↦ ?_
  subst hfiles hr
  rw [andThen_ok, wp_bind]
  refine wp_mono (storeVersion_succeeds hs hfree) fun r files₄ ⟨fingerprint, hr⟩ ↦ ?_
  subst hr
  exact ⟨_, rfl⟩

end Runs

end Heimdall
