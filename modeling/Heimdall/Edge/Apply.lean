import Heimdall.Edge.Ownership

/-!
# What `apply` does to the files

The routines of the configuration manager under the assumption that it owns the files, up to
`apply` itself: `wp_applyLocked`. The callbacks are programs of the caller; what they have to keep is
collected in `CallbackSpec`. The caller's part of the world is followed through three assertions: `D`
until `finalize` has committed, `D'` afterwards, and the weaker `U` where the commit is not known.
-/

namespace Heimdall

open Effect

namespace Ownership

variable {σ : Type} {M : Setting σ Op Ans Exc} {W : Ownership M} {D : σ → Prop} {fs : FileSystem}
  {s : σ} {heartbeat : Py Unit}

/-! ## Before the switch -/

theorem wp_testConfig (hD : W.Frame D D) {soft : Exc → Prop}
    (hquiet : ∀ fs', Grown fs fs' →
      QuietOps M (W.Stage D fs') (W.Stage D fs') soft fun _ ↦ False)
    (hh : ∀ fs', Grown fs fs' →
      Tracks M (W.Stage D fs') (W.Stage D fs') soft (fun _ ↦ False) heartbeat)
    (hedge : ∀ code retryable, soft (.edgeRuntime { code := code, retryable := retryable }))
    (hos : soft .osError) (hvalue : soft .value) (m : EdgeConfigManager) (candidate : Path)
    (hs : W.Stage D fs s) {Q : Except Exc Unit → σ → Prop}
    (hok : ∀ fs' s', Grown fs fs' → W.Stage D fs' s' → Q (.ok ()) s')
    (herror : ∀ x fs' s', soft x → Grown fs fs' → W.Stage D fs' s' → Q (.error x) s') :
    wp M (m.testConfig candidate heartbeat) Q s := by
  have hread : ∀ file, Tracks M (W.Stage D fs) (W.Stage D fs) soft (fun _ ↦ False)
      (m.readEdgeFile file heartbeat) := fun file ↦
    m.tracks_readEdgeFile (hquiet fs (.refl fs)) (hh fs (.refl fs)) hedge (.inl hvalue)
  unfold EdgeConfigManager.testConfig
  rw [wp_bind]
  refine wp_mono (hread _ s hs) fun r s₁ hs₁ ↦ ?_
  cases r with
  | error x =>
    exact herror x fs s₁ (hs₁.elim And.left fun h ↦ h.1.elim) (.refl _)
      (hs₁.elim And.right And.right)
  | ok mainConfig =>
  rw [andThen_ok, wp_bind]
  refine wp_mono (hread _ s₁ hs₁) fun r s₂ hs₂ ↦ ?_
  cases r with
  | error x =>
    exact herror x fs s₂ (hs₂.elim And.left fun h ↦ h.1.elim) (.refl _)
      (hs₂.elim And.right And.right)
  | ok managementConfig =>
  rw [andThen_ok, wp_bind]
  refine wp_privateTemporary hD hs₂ (fun n fs₃ s₃ hn hfs₃ hs₃ ↦ ?_)
    fun fs' s' _ hgrown hs' ↦ herror _ fs' s' hos hgrown hs'
  have hgrown₃ : Grown fs fs₃ := hfs₃ ▸ (Grown.refl fs).update hn _
  rw [andThen_ok, wp_bind]
  refine wp_privateTemporary hD hs₃ (fun k fs₄ s₄ hk hfs₄ hs₄ ↦ ?_)
    fun fs' s' _ hgrown hs' ↦ herror _ fs' s' hos (hgrown₃.trans hgrown) hs'
  have hgrown₄ : Grown fs fs₄ := hfs₄ ▸ hgrown₃.trans ((Grown.refl fs₃).update hk _)
  have hk₀ : fs (.edge (.temporary k)) = none := by
    by_contra hne
    obtain ⟨text, htext⟩ := Option.ne_none_iff_exists'.mp hne
    simp [hgrown₃.kept htext] at hk
  rw [andThen_ok, wp_tryFinally, wp_bind]
  have hrun := m.tracks_run (c := .runEdgeTest m.edgeNetworkName (.edge (.temporary n))
    (.edge (.temporary k)) candidate m.nginxImage) (hquiet fs₄ hgrown₄) (hh fs₄ hgrown₄) hedge
    (.inl hvalue) "EDGE_CONFIG_INVALID"
  refine wp_mono (hrun s₄ hs₄) fun r s₅ hs₅ ↦ ?_
  -- both files are removed, whatever the test said
  have hclean : ∀ r : Except Exc Unit, W.Stage D fs₄ s₅ → (∀ x, r = .error x → soft x) →
      wp M (do
        Py.file (.unlink (.edge (.temporary n)))
        Py.file (.unlink (.edge (.temporary k))) : Py Unit)
        (andThen M (fun _ ↦ .ofExcept r) Q) s₅ := by
    intro r hs₅ hr
    rw [wp_bind]
    refine wp_unlinkTemporary hD hn hgrown₄ hs₅ (fun fs₆ s₆ hgrown₆ hs₆ ↦ ?_)
      fun fs' s' _ hgrown hs' ↦ herror _ fs' s' hos hgrown hs'
    rw [andThen_ok]
    refine wp_unlinkTemporary hD hk₀ hgrown₆ hs₆ (fun fs₇ s₇ hgrown₇ hs₇ ↦ ?_)
      fun fs' s' _ hgrown hs' ↦ herror _ fs' s' hos hgrown hs'
    rw [andThen_ok, wp_ofExcept]
    cases r with
    | ok _ => exact hok fs₇ s₇ hgrown₇ hs₇
    | error x => exact herror x fs₇ s₇ (hr x rfl) hgrown₇ hs₇
  cases r with
  | error x =>
    refine hclean (.error x) (hs₅.elim And.right And.right) fun x' hx ↦ ?_
    cases hx
    exact hs₅.elim And.left fun h ↦ h.1.elim
  | ok result => exact hclean (.ok ()) hs₅ fun x hx ↦ by cases hx

theorem wp_readPrevious (hD : W.Framed D) (hs : W.Stage D fs s) {Q : Except Exc String → σ → Prop}
    (hok : ∀ raw fs' s', fs' livePath = some raw →
      (∀ text, fs livePath = some text → raw = text) → fs' journalPath = fs journalPath →
      (∀ n text, fs (.edge (.temporary n)) = some text → fs' (.edge (.temporary n)) = some text) →
      W.Stage D fs' s' → Q (.ok (decodeText raw)) s')
    (herror : ∀ x fs' s', (∀ text, fs livePath = some text → fs' livePath = some text) →
      W.Stage D fs' s' → Q (.error x) s') : wp M readPrevious Q s := by
  unfold readPrevious
  rw [wp_bind]
  refine wp_inner_same hD hs fun r s₁ hstep _ hs₁ ↦ ?_
  cases r with
  | error x => exact herror x fs s₁ (fun _ ↦ id) hs₁
  | ok found =>
  obtain rfl : found = (fs livePath).isSome := hstep.1
  cases hlive : fs livePath with
  | some raw =>
    refine wp_inner_same hD hs₁ fun r s₂ hstep _ hs₂ ↦ ?_
    cases r with
    | error x => exact herror x fs s₂ (fun _ ↦ id) hs₂
    | ok text =>
      obtain ⟨raw', hraw', rfl⟩ : ∃ raw', fs livePath = some raw' ∧ text = decodeText raw' :=
        hstep.1
      exact hok raw' fs s₂ hraw' (fun text ht ↦ Option.some.inj (hraw'.symm.trans ht)) rfl
        (fun _ _ ↦ id) hs₂
  | none =>
    rw [andThen_ok]
    have hsafe : W.strict → JournalOk (Function.update fs livePath (some noRoutesConfig)) := by
      refine fun hstrict ↦ .of_noJournal (fun text ht ↦ ?_) ?_
      · rw [Function.update_self] at ht
        exact Option.some.inj ht ▸ configText_noRoutesConfig
      · rw [Function.update_of_ne (by simp [livePath, journalPath])]
        exact (hs.safe hstrict).journal_eq_none hlive
    change wp M (atomicWrite livePath noRoutesConfig >>= fun _ ↦ pure noRoutesConfig) Q s₁
    rw [wp_bind]
    have hfail : ∀ x fs' s', W.Stage D fs' s' → Q (.error x) s' := fun x fs' s' ↦
      herror x fs' s' fun text ht ↦ by simp [hlive] at ht
    refine wp_atomicWrite hD.frame hD.frame (fun _ ↦ hD.turns _ trivial) (hD.turns _ trivial)
      hs₁ (by simp [livePath]) hsafe (fun fs' s' hgrown hs' ↦ ?_) (fun fs' s' _ _ ↦ hfail _ fs' s')
      fun fs' s' _ _ ↦ hfail _ fs' s'
    rw [andThen_ok]
    have hdecode : decodeText noRoutesConfig = noRoutesConfig :=
      decodeText_eq_self configText_noRoutesConfig.noCarriageReturn
    refine hdecode ▸ hok noRoutesConfig fs' s' ?_ (fun text ht ↦ by simp [hlive] at ht) ?_ ?_ hs'
    · rw [hgrown.live, Function.update_self]
    · rw [hgrown.journal, Function.update_of_ne (by simp [livePath, journalPath])]
    · intro n text ht
      exact hgrown.kept ((Function.update_of_ne (by simp [livePath]) _ _).trans ht)

/-! ## Restoring -/

theorem wp_restore (hD : W.Framed D) (hh : ∀ fs, Preserves M (W.Stage D fs) heartbeat)
    (m : EdgeConfigManager) {candidate previous : String} (change : Option EdgeRouteChange)
    (hs : W.Stage D fs s) (hlive : fs livePath = some candidate)
    (hcandidate : NoCarriageReturn candidate)
    (hsafe : W.strict → JournalOk (Function.update fs livePath (some previous)))
    {Q : Except Exc Unit → σ → Prop}
    (h : ∀ r fs' s', (W.reliable → fs' livePath = some previous) → W.Stage D fs' s' → Q r s') :
    wp M (m.restore candidate previous change heartbeat) Q s := by
  unfold EdgeConfigManager.restore
  rw [wp_bind, wp_bind]
  refine wp_inner_same hD hs fun r s₁ hstep hrel hs₁ ↦ ?_
  cases r with
  | error x => exact h _ fs s₁ (fun hreliable ↦ (hrel hreliable trivial).elim) hs₁
  | ok found =>
  obtain rfl : found = true := by rw [hstep.1, hlive, Option.isSome_some]
  rw [andThen_ok]
  change wp M (Py.file (.readText livePath) >>= fun current ↦ pure (decide (current = candidate))) _ s₁
  rw [wp_bind]
  refine wp_inner_same hD hs₁ fun r s₂ hstep hrel hs₂ ↦ ?_
  have hpossible : FileOp.Possible fs (.readText livePath) := by simp [FileOp.Possible, hlive]
  cases r with
  | error x => exact h _ fs s₂ (fun hreliable ↦ (hrel hreliable hpossible).elim) hs₂
  | ok current =>
  obtain rfl : current = candidate := by
    obtain ⟨raw, hraw, htext⟩ := hstep.1
    obtain rfl : candidate = raw := Option.some.inj (hlive.symm.trans hraw)
    rw [htext, decodeText_eq_self hcandidate]
  simp only [andThen_ok, wp_pure', decide_true, if_true]
  rw [wp_bind]
  have hfail : ∀ x fs' s', ¬W.reliable → W.Stage D fs' s' → Q (.error x) s' := fun x fs' s' hrel ↦
    h _ fs' s' fun hreliable ↦ (hrel hreliable).elim
  refine wp_atomicWrite hD.frame hD.frame (fun _ ↦ hD.turns _ trivial) (hD.turns _ trivial)
    hs₂ (by simp [livePath]) hsafe (fun fs₃ s₃ hgrown hs₃ ↦ ?_) (fun fs' s' hrel _ ↦ hfail _ fs' s' hrel)
    fun fs' s' hrel _ ↦ hfail _ fs' s' hrel
  have hlive₃ : fs₃ livePath = some previous := by rw [hgrown.live, Function.update_self]
  rw [andThen_ok, wp_bind]
  have hreload : Preserves M (W.Stage D fs₃) (m.reload heartbeat) :=
    (m.tracks_reload (quietOps hD.calm fs₃) (hh fs₃).tracks (fun _ _ ↦ trivial) (.inl trivial)
      (.inl trivial) (.inl trivial)).preserves
  refine hreload.apply hs₃ fun r s₄ hs₄ ↦ ?_
  cases r with
  | error x => exact h _ fs₃ s₄ (fun _ ↦ hlive₃) hs₄
  | ok _ =>
  rw [andThen_ok, wp_bind]
  have hprobe : Preserves M (W.Stage D fs₃) (m.probeRestored change heartbeat) :=
    (m.tracks_probeRestored (quietOps hD.calm fs₃) (hh fs₃).tracks (fun _ _ ↦ trivial)
      change).preserves
  refine hprobe.apply hs₄ fun r s₅ hs₅ ↦ ?_
  cases r with
  | error x => exact h _ fs₃ s₅ (fun _ ↦ hlive₃) hs₅
  | ok _ =>
  rw [andThen_ok]
  have hlive₆ : Function.update fs₃ journalPath none livePath = some previous := by
    rw [Function.update_of_ne (by simp [livePath, journalPath]), hlive₃]
  exact wp_removeTransactionJournal hD.stable (hD.turns _ trivial) hD.stable
    (hD.turns _ trivial) hs₅
    (fun s₆ ↦ h _ _ s₆ fun _ ↦ hlive₆) (fun _ s' _ _ ↦ h _ fs₃ s' fun _ ↦ hlive₃)
    fun _ s' _ _ ↦ h _ _ s' fun _ ↦ hlive₆

/-! ## The callbacks -/

/-- What may hold when `finalize` ends. -/
def Finalized (W : Ownership M) (D D' U : σ → Prop) (fs : FileSystem) : Except Exc Unit → σ → Prop
  | .ok (), s => W.Stage D' fs s
  | .error .edgeFinalizeRejected, s => W.Stage D fs s
  | .error _, s => W.Stage U fs s

/-- The callbacks leave the files alone, the fence establishes `Fact` when it lets pass, and
`finalize` takes `D` to `D'`. -/
structure CallbackSpec (W : Ownership M) (cb : EdgeCallbacks) (D D' U : σ → Prop) (Fact : Prop) :
    Prop where
  before : W.Framed D
  after : W.Framed D'
  unknown : W.Framed U
  of_before : ∀ s, D s → U s
  of_after : ∀ s, D' s → U s
  heartbeat : ∀ fs, Preserves M (W.Stage D fs) cb.heartbeat
  fence : ∀ fs s, W.Stage D fs s →
    wp M cb.fence (fun r s' ↦ W.Stage D fs s' ∧ (r = .ok () → Fact)) s
  finalize : Fact → ∀ fs s, W.Stage D fs s → wp M cb.finalize (W.Finalized D D' U fs) s

/-! ## The body -/

/-- The temporary file of the candidate, while there is one. -/
def CandidateTemporary (l : ApplyLocals) : Prop :=
  ∀ p, l.candidatePath = some p → ∃ n, p = .edge (.temporary n)

/-- The live file has been replaced under a journal that can undo it. -/
structure Undoable (W : Ownership M) (rendered previous : String) (live₀ : Option String)
    (fs : FileSystem) : Prop where
  live : fs livePath = some rendered
  restorable : W.strict → JournalOk (Function.update fs livePath (some previous))
  previous : ∀ text, live₀ = some text → NoCarriageReturn text → previous = text

/-- How the body of `apply` may end. -/
inductive BodyPost (W : Ownership M) (D D' U : σ → Prop) (rendered : String)
    (live₀ : Option String) : Except Exc Unit → ApplyLocals → σ → Prop
  | done {l : ApplyLocals} {fs : FileSystem} {s : σ} (hlive : fs livePath = some rendered)
      (hjournal : fs journalPath = none) (hpath : l.candidatePath = none) (hs : W.Stage D' fs s) :
      BodyPost W D D' U rendered live₀ (.ok ()) l s
  | unswitched {x : Exc} {l : ApplyLocals} {fs : FileSystem} {s : σ} (hswitched : l.switched = false)
      (hpath : CandidateTemporary l) (hlive : ∀ text, live₀ = some text → fs livePath = some text)
      (hs : W.Stage D fs s) : BodyPost W D D' U rendered live₀ (.error x) l s
  | switched {x : Exc} {l : ApplyLocals} {fs : FileSystem} {s : σ} (hswitched : l.switched = true)
      (hfinalized : l.finalized = false) (hpath : l.candidatePath = none)
      (hundo : Undoable W rendered l.previous live₀ fs) (hs : W.Stage D fs s) :
      BodyPost W D D' U rendered live₀ (.error x) l s
  | finalized {x : Exc} {l : ApplyLocals} {fs : FileSystem} {s : σ}
      (hfinalized : l.finalized = true) (hpath : l.candidatePath = none)
      (hx : x.isUncertain = true ∨ ¬W.reliable) (hs : W.Stage U fs s) :
      BodyPost W D D' U rendered live₀ (.error x) l s

section Body

variable {D' U : σ → Prop} {Fact : Prop} {cb : EdgeCallbacks} {live₀ : Option String}
  {rendered : String}

theorem wpl_applyFinalize (hcb : CallbackSpec W cb D D' U Fact) (hfact : Fact)
    {tx : EdgeTransaction} (htx : W.strict → tx.Valid) (hcandidate : tx.candidate = rendered)
    {l : ApplyLocals} (hswitched : l.switched = true) (hfinalized : l.finalized = false)
    (hpath : l.candidatePath = none) (hundo : Undoable W rendered l.previous live₀ fs)
    (hs : W.Stage D fs s) :
    wpl M (applyFinalize tx cb) (BodyPost W D D' U rendered live₀) l s := by
  unfold applyFinalize
  rw [wpl_bind, wpl_tryCatch, wpl_lift]
  refine wp_mono (hcb.finalize hfact fs s hs) fun r s₁ hr ↦ ?_
  cases r with
  | error x =>
    cases x
    case edgeFinalizeRejected => exact .switched hswitched hfinalized hpath hundo hr
    all_goals exact .finalized rfl hpath (.inl rfl) hr
  | ok _ =>
  rw [orElseL_ok, andThenL_ok, wpl_bind, wpl_modify, andThenL_ok, wpl_bind, wpl_liftM]
  have hafter : ∀ x fs' s', ¬W.reliable → W.Stage D' fs' s' →
      BodyPost W D D' U rendered live₀ (.error x) { l with finalized := true } s' :=
    fun x fs' s' hrel hs' ↦ .finalized rfl hpath (.inr hrel) (hs'.weaken hcb.of_after)
  have hsafe : W.strict → JournalOk (Function.update fs journalPath
      (some { tx with phase := .committed }.text)) := fun h ↦
    .of_transaction ((htx h).withPhase _) (Function.update_self ..) (.inr (by
      rw [Function.update_of_ne (by simp [livePath, journalPath]), hundo.live, ← hcandidate]))
  refine wp_writeTransaction hcb.after.frame hcb.after.frame (fun _ ↦ hcb.after.turns _ trivial)
    (hcb.after.turns _ trivial) hr hsafe (fun fs₂ s₂ hgrown hs₂ ↦ ?_) (fun x fs' s' hrel _ _ ↦ hafter x fs' s' hrel)
    fun x fs' s' hrel _ _ ↦ hafter x fs' s' hrel
  have hlive₂ : fs₂ livePath = some rendered := by
    rw [hgrown.live, Function.update_of_ne (by simp [livePath, journalPath]), hundo.live]
  rw [andThenL_ok, wpl_liftM]
  refine wp_removeTransactionJournal hcb.after.stable (hcb.after.turns _ trivial) hcb.after.stable
    (hcb.after.turns _ trivial) hs₂ (fun s₃ hs₃ ↦ .done ?_ ?_ hpath hs₃) (fun x s' hrel _ ↦ hafter x _ s' hrel)
    fun x s' hrel _ ↦ hafter x _ s' hrel
  · rw [Function.update_of_ne (by simp [livePath, journalPath]), hlive₂]
  · exact Function.update_self ..

theorem wpl_applySwitch (hcb : CallbackSpec W cb D D' U Fact) (m : EdgeConfigManager)
    (routes : List EdgeRouteTarget) (change : Option EdgeRouteChange) (all : Bool) {n : ℕ} {tx : EdgeTransaction}
    (htx : W.strict → tx.Valid) (hcandidate : tx.candidate = rendered) {l : ApplyLocals}
    (hswitched : l.switched = false) (hfinalized : l.finalized = false)
    (hpath : l.candidatePath = some (.edge (.temporary n))) (hprevious : l.previous = tx.previous)
    (hlive : ∀ text, live₀ = some text → fs livePath = some text)
    (hundo : ∀ text, live₀ = some text → NoCarriageReturn text → tx.previous = text)
    (hjournal : fs journalPath = some tx.text)
    (hfile : fs (.edge (.temporary n)) = some rendered) (hs : W.Stage D fs s) :
    wpl M (m.applySwitch routes change cb all (.edge (.temporary n)) tx)
      (BodyPost W D D' U rendered live₀) l s := by
  unfold EdgeConfigManager.applySwitch
  rw [wpl_bind, wpl_liftM]
  refine wp_inner hcb.before hs fun r fs₁ hstep _ ↦ ?_
  cases r with
  | error x =>
    obtain ⟨rfl, rfl⟩ : x = .osError ∧ fs₁ = fs := hstep
    refine ⟨hs.safe, fun s' hs' ↦ .unswitched hswitched (fun p hp ↦ ⟨n, ?_⟩) hlive hs'⟩
    exact (Option.some.inj (hpath.symm.trans hp)).symm
  | ok _ =>
  obtain ⟨text, htext, rfl⟩ : ∃ text, fs (.edge (.temporary n)) = some text
    ∧ fs₁ = Function.update (Function.update fs livePath (some text)) _ none := hstep
  obtain rfl : rendered = text := Option.some.inj (hfile.symm.trans htext)
  generalize hfs₁ : Function.update (Function.update fs livePath (some rendered))
    (Path.edge (.temporary n)) none = fs₁
  have hlive₁ : fs₁ livePath = some rendered := by
    rw [← hfs₁, Function.update_of_ne (by simp [livePath]), Function.update_self]
  have hjournal₁ : fs₁ journalPath = some tx.text := by
    rw [← hfs₁, Function.update_of_ne (by simp [journalPath]),
      Function.update_of_ne (by simp [livePath, journalPath]), hjournal]
  refine ⟨fun h ↦ .of_transaction (htx h) hjournal₁ (.inr (hcandidate ▸ hlive₁)), fun s₁ hs₁ ↦ ?_⟩
  have hundo₁ : Undoable W rendered l.previous live₀ fs₁ := by
    refine ⟨hlive₁, fun h ↦ .of_transaction (htx h) ?_ (.inl ?_), hprevious ▸ hundo⟩
    · rw [Function.update_of_ne (by simp [livePath, journalPath]), hjournal₁]
    · rw [Function.update_self, hprevious]
  rw [andThenL_ok, wpl_bind, wpl_modify, andThenL_ok, wpl_bind, wpl_liftM]
  -- from here on every failure leaves the switched file under its journal
  have hfail : ∀ x s', W.Stage D fs₁ s' → BodyPost W D D' U rendered live₀ (.error x)
      { l with candidatePath := none, switched := true } s' :=
    fun x s' hs' ↦ .switched rfl hfinalized rfl hundo₁ hs'
  refine wp_inner_same hcb.before hs₁ fun r s₂ _ _ hs₂ ↦ ?_
  cases r with
  | error x => exact hfail x s₂ hs₂
  | ok _ =>
  rw [andThenL_ok, wpl_bind, wpl_liftM]
  have hreload : Preserves M (W.Stage D fs₁) (m.reload cb.heartbeat) :=
    (m.tracks_reload (quietOps hcb.before.calm fs₁) (hcb.heartbeat fs₁).tracks (fun _ _ ↦ trivial)
      (.inl trivial) (.inl trivial) (.inl trivial)).preserves
  refine hreload.apply hs₂ fun r s₃ hs₃ ↦ ?_
  cases r with
  | error x => exact hfail x s₃ hs₃
  | ok _ =>
  rw [andThenL_ok, wpl_bind, wpl_liftM]
  have hprobe : Preserves M (W.Stage D fs₁) (m.probeCandidate routes change cb.heartbeat all) :=
    (m.tracks_probeCandidate (quietOps hcb.before.calm fs₁) (hcb.heartbeat fs₁).tracks
      (fun _ _ ↦ trivial) routes change all).preserves
  refine hprobe.apply hs₃ fun r s₄ hs₄ ↦ ?_
  cases r with
  | error x => exact hfail x s₄ hs₄
  | ok _ =>
  rw [andThenL_ok, wpl_bind, wpl_liftM]
  refine wp_mono (hcb.fence fs₁ s₄ hs₄) fun r s₅ hr ↦ ?_
  cases r with
  | error x => exact hfail x s₅ hr.1
  | ok _ => exact wpl_applyFinalize hcb (hr.2 rfl) htx hcandidate rfl hfinalized rfl hundo₁ hr.1

theorem wpl_applyBody (hcb : CallbackSpec W cb D D' U Fact) (m : EdgeConfigManager)
    {routes : List EdgeRouteTarget} (hrendered : renderEdgeRoutes routes = .ok rendered)
    {change : Option EdgeRouteChange} (all : Bool)
    (hchange : W.strict → ∀ hostname, change.bind EdgeRouteChange.previousHostname = some hostname →
      isHostname hostname = true) (hs : W.Stage D fs s) :
    wpl M (m.applyBody routes rendered change cb all) (BodyPost W D D' U rendered (fs livePath))
      {} s := by
  have htext := configText_renderEdgeRoutes hrendered
  have hfail : ∀ x s', W.Stage D fs s' →
      BodyPost W D D' U rendered (fs livePath) (.error x) {} s' := fun x s' hs' ↦
    .unswitched rfl (fun p hp ↦ by simp at hp) (fun _ ↦ id) hs'
  unfold EdgeConfigManager.applyBody
  rw [wpl_bind, wpl_liftM]
  refine (preserves_validateInterruptedLocked (fun _ ↦ keeps_same hcb.before fs)
    fun _ ↦ keeps_same hcb.before fs).apply hs fun r s₁ hs₁ ↦ ?_
  cases r with
  | error x => exact hfail x s₁ hs₁
  | ok _ =>
  rw [andThenL_ok, wpl_bind, wpl_liftM]
  refine (hcb.heartbeat fs).apply hs₁ fun r s₂ hs₂ ↦ ?_
  cases r with
  | error x => exact hfail x s₂ hs₂
  | ok _ =>
  rw [andThenL_ok, wpl_bind, wpl_liftM]
  refine wp_mono (hcb.fence fs s₂ hs₂) fun r s₃ hr ↦ ?_
  have hs₃ := hr.1
  cases r with
  | error x => exact hfail x s₃ hs₃
  | ok _ =>
  rw [andThenL_ok, wpl_bind, wpl_liftM]
  have hverify : Preserves M (W.Stage D fs) (m.verifyEdge cb.heartbeat) :=
    (m.tracks_verifyEdge (quietOps hcb.before.calm fs) (hcb.heartbeat fs).tracks
      (fun _ _ ↦ trivial) (.inl trivial) (.inl trivial)).preserves
  refine hverify.apply hs₃ fun r s₄ hs₄ ↦ ?_
  cases r with
  | error x => exact hfail x s₄ hs₄
  | ok _ =>
  rw [andThenL_ok, wpl_bind, wpl_liftM]
  refine wp_privateTemporary hcb.before.frame hs₄ (fun n fs₅ s₅ hn hfs₅ hs₅ ↦ ?_)
    fun fs' s' _ hgrown hs' ↦ .unswitched rfl (fun p hp ↦ by simp at hp)
      (fun text ht ↦ hgrown.live.trans ht) hs'
  have hgrown₅ : Grown fs fs₅ := hfs₅ ▸ (Grown.refl fs).update hn _
  have hfile₅ : fs₅ (.edge (.temporary n)) = some rendered := by rw [hfs₅, Function.update_self]
  rw [andThenL_ok, wpl_bind, wpl_modify, andThenL_ok, wpl_bind, wpl_liftM]
  -- now there is a temporary file, but the live file is still the old one
  have hfail' : ∀ x fs' s' previous, (∀ text, fs livePath = some text → fs' livePath = some text) →
      W.Stage D fs' s' → BodyPost W D D' U rendered (fs livePath) (.error x)
        { candidatePath := some (.edge (.temporary n)), previous := previous } s' := by
    refine fun x fs' s' previous hlive hs' ↦ .unswitched rfl (fun p hp ↦ ⟨n, ?_⟩) hlive hs'
    exact (Option.some.inj hp).symm
  have hgrownLive : ∀ fs', Grown fs₅ fs' → ∀ text, fs livePath = some text →
      fs' livePath = some text := fun fs' hgrown text ht ↦ (hgrown₅.trans hgrown).live.trans ht
  refine wp_testConfig hcb.before.frame (fun fs' _ ↦ quietOps hcb.before.calm fs')
    (fun fs' _ ↦ (hcb.heartbeat fs').tracks) (fun _ _ ↦ trivial) trivial trivial m _ hs₅
    (fun fs₆ s₆ hgrown hs₆ ↦ ?_)
    fun x fs' s' _ hgrown hs' ↦ hfail' x fs' s' _ (hgrownLive fs' hgrown) hs'
  have hfile₆ := hgrown.kept hfile₅
  have hlive₆ := hgrownLive fs₆ hgrown
  rw [andThenL_ok, wpl_bind, wpl_liftM]
  refine wp_mono (hcb.fence fs₆ s₆ hs₆) fun r s₇ hr ↦ ?_
  have hs₇ := hr.1
  cases r with
  | error x => exact hfail' x fs₆ s₇ _ hlive₆ hs₇
  | ok _ =>
  rw [andThenL_ok, wpl_bind, wpl_liftM]
  refine wp_readPrevious hcb.before hs₇ (fun raw fs₈ s₈ hraw hsame hjournal hkept hs₈ ↦ ?_)
    fun x fs' s' hlive hs' ↦ hfail' x fs' s' _ (fun text ht ↦ hlive text (hlive₆ text ht)) hs'
  have hlive₈ : ∀ text, fs livePath = some text → fs₈ livePath = some text :=
    fun text ht ↦ hsame text (hlive₆ text ht) ▸ hraw
  rw [andThenL_ok, wpl_bind, wpl_modify, andThenL_ok, wpl_bind, wpl_liftM]
  set tx : EdgeTransaction := {
    previous := decodeText raw
    candidate := rendered
    previousHostname := change.bind EdgeRouteChange.previousHostname
    phase := .prepared } with htx
  have hvalid : W.strict → tx.Valid := by
    intro h
    have hconfig := (hs₈.safe h).live raw hraw
    have hprevious : tx.previous = raw := decodeText_eq_self hconfig.noCarriageReturn
    exact ⟨hprevious ▸ hconfig, htext, hchange h⟩
  refine wp_writeTransaction hcb.before.frame hcb.before.frame
    (fun _ ↦ hcb.before.turns _ trivial) (hcb.before.turns _ trivial) hs₈ (fun h ↦ ?_) (fun fs₉ s₉ hgrown₉ hs₉ ↦ ?_)
    (fun x fs' s' _ _ hgrown ↦ hfail' x fs' s' _ fun text ht ↦ hgrown.live.trans (hlive₈ text ht))
    fun x fs' s' _ _ hgrown ↦ hfail' x fs' s' _ fun text ht ↦ hgrown.live.trans
      ((Function.update_of_ne (by simp [livePath, journalPath]) _ _).trans (hlive₈ text ht))
  · refine .of_transaction (hvalid h) (Function.update_self ..) (.inl ?_)
    rw [Function.update_of_ne (by simp [livePath, journalPath]), hraw]
    exact congrArg some
      (decodeText_eq_self ((hs₈.safe h).live raw hraw).noCarriageReturn).symm
  · rw [andThenL_ok]
    have hlive₉ : fs₉ livePath = fs₈ livePath :=
      hgrown₉.live.trans (Function.update_of_ne (by simp [livePath, journalPath]) _ _)
    refine wpl_applySwitch hcb m routes change all hvalid rfl rfl rfl rfl rfl
      (fun text ht ↦ hlive₉.trans (hlive₈ text ht)) (fun text ht hcr ↦ ?_) ?_ ?_ hs₉
    · rw [htx, hsame text (hlive₆ text ht)]
      exact decodeText_eq_self hcr
    · rw [hgrown₉.journal, Function.update_self]
    · refine hgrown₉.kept ?_
      rw [Function.update_of_ne (by simp [journalPath])]
      exact hkept n rendered hfile₆

/-! ## The handlers -/

/-- How `apply` may end, before it gives up the lock. -/
inductive Applied (W : Ownership M) (D D' U : σ → Prop) (rendered : String)
    (live₀ : Option String) : Except Exc Unit → σ → Prop
  | done {fs : FileSystem} {s : σ} (hlive : fs livePath = some rendered)
      (hjournal : fs journalPath = none) (hs : W.Stage D' fs s) :
      Applied W D D' U rendered live₀ (.ok ()) s
  | failed {x : Exc} {fs : FileSystem} {s : σ}
      (hlive : W.reliable → x.isUncertain = false → ∀ text, live₀ = some text →
        NoCarriageReturn text → fs livePath = some text)
      (hs : W.Stage (fun s ↦ U s ∧ (W.reliable → x.isUncertain = false → D s)) fs s) :
      Applied W D D' U rendered live₀ (.error x) s

theorem Framed.failed (hD : W.Framed D) (hU : W.Framed U) (p q : Prop) :
    W.Framed fun s ↦ U s ∧ (p → q → D s) where
  stable s s' hheld h hrely :=
    ⟨hU.stable s s' hheld h.1 hrely, fun hp hq ↦ hD.stable s s' hheld (h.2 hp hq) hrely⟩
  turns o ho s r s' hheld h hstep := by
    have hU' := hU.turns o ho s r s' hheld h.1 hstep
    have hD' := fun hp hq ↦ hD.turns o ho s r s' hheld (h.2 hp hq) hstep
    cases r <;> exact ⟨hU', hD'⟩

theorem Applied.of_before {x : Exc} (hcb : CallbackSpec W cb D D' U Fact) (hs : W.Stage D fs s)
    (hlive : W.reliable → x.isUncertain = false → ∀ text, live₀ = some text →
      NoCarriageReturn text → fs livePath = some text) :
    Applied W D D' U rendered live₀ (.error x) s :=
  .failed hlive (hs.weaken fun s h ↦ ⟨hcb.of_before s h, fun _ _ ↦ h⟩)

/-- The `except` clause of `apply`. -/
theorem wpl_applyExcept (hcb : CallbackSpec W cb D D' U Fact) (m : EdgeConfigManager)
    (hrendered : NoCarriageReturn rendered) (change : Option EdgeRouteChange) {x : Exc}
    {l : ApplyLocals} (h : BodyPost W D D' U rendered live₀ (.error x) l s) :
    wpl M (m.applyExcept rendered change cb x)
      (fun r l s ↦ Applied W D D' U rendered live₀ r s ∧ CandidateTemporary l) l s := by
  have hnone : l.candidatePath = none → CandidateTemporary l := fun h p hp ↦ by simp [h] at hp
  unfold EdgeConfigManager.applyExcept
  rw [wpl_bind, wpl_get, andThenL_ok]
  cases h with
  | @unswitched _ _ fs _ hswitched hpath hlive hs =>
    simp only [hswitched, Bool.false_and, Bool.false_eq_true, if_false]
    exact ⟨.of_before hcb hs fun _ _ text ht _ ↦ hlive text ht, hpath⟩
  | @finalized _ _ fs _ hfinalized hpath hx hs =>
    simp only [hfinalized, Bool.not_true, Bool.and_false, Bool.false_eq_true, if_false]
    have himpossible : W.reliable → x.isUncertain = false → False := by
      intro hrel hnot
      rcases hx with hx | hx
      · simp [hx] at hnot
      · exact hx hrel
    exact ⟨.failed (fun hrel hnot ↦ (himpossible hrel hnot).elim)
      (hs.weaken fun s h ↦ ⟨h, fun hrel hnot ↦ (himpossible hrel hnot).elim⟩), hnone hpath⟩
  | @switched _ _ fs _ hswitched hfinalized hpath hundo hs =>
    simp only [hswitched, hfinalized, Bool.not_false, Bool.and_true, if_true]
    rw [wpl_bind, wpl_liftM, Py.except, wp_tryCatch]
    refine wp_restore hcb.before hcb.heartbeat m change hs hundo.live hrendered hundo.restorable
      fun r fs' s' hlive hs' ↦ ?_
    have hrestored : ∀ x', Applied W D D' U rendered live₀ (.error x') s' := fun x' ↦
      .of_before hcb hs' fun hrel _ text ht hcr ↦ (hlive hrel).trans
        (congrArg some (hundo.previous text ht hcr))
    cases r with
    | ok _ => exact ⟨hrestored x, hnone hpath⟩
    | error x' =>
      rw [orElse_error]
      cases x'
      all_goals exact ⟨hrestored _, hnone hpath⟩

/-- The `finally` clause of `apply`, up to the lock. -/
theorem wp_removeCandidate (hcb : CallbackSpec W cb D D' U Fact) {l : ApplyLocals}
    {r : Except Exc Unit} (h : Applied W D D' U rendered live₀ r s) (hpath : CandidateTemporary l)
    {Q : Except Exc Unit → σ → Prop}
    (hok : ∀ s', Applied W D D' U rendered live₀ r s' → Q (.ok ()) s')
    (herror : ∀ x s', Applied W D D' U rendered live₀ (.error x) s' → Q (.error x) s') :
    wp M (match l.candidatePath with
      | some path => Py.file (.unlink path)
      | none => pure () : Py Unit) Q s := by
  cases hp : l.candidatePath with
  | none => exact hok s h
  | some path =>
  obtain ⟨n, rfl⟩ := hpath path hp
  have hsame : ∀ {fs : FileSystem} p, (∀ n, p ≠ .edge (.temporary n)) →
      Function.update fs (.edge (.temporary n)) none p = fs p :=
    fun p hne ↦ Function.update_of_ne (hne n) _ _
  have hlivePath : ∀ n, livePath ≠ .edge (.temporary n) := by simp [livePath]
  have hjournalPath : ∀ n, journalPath ≠ .edge (.temporary n) := by simp [journalPath]
  have hremoved : ∀ {fs : FileSystem}, JournalOk fs →
      JournalOk (Function.update fs (.edge (.temporary n)) none) := fun hj ↦
    hj.congr (hsame _ hlivePath) (hsame _ hjournalPath)
  cases h with
  | @done fs _ hlive hjournal hs =>
    refine wp_minor hcb.after.frame hs fun r' fs' hstep hrel ↦ ?_
    cases r' with
    | ok _ =>
      obtain rfl : fs' = Function.update fs (.edge (.temporary n)) none := hstep
      exact ⟨fun h ↦ hremoved (hs.safe h), fun s' hs' ↦ hok s' (.done
        ((hsame _ hlivePath).trans hlive) ((hsame _ hjournalPath).trans hjournal) hs')⟩
    | error x =>
      obtain ⟨rfl, rfl⟩ : x = .osError ∧ fs' = fs := hstep
      refine ⟨hs.safe, fun s' hs' ↦ herror _ s' (.failed
        (fun h ↦ (hrel h trivial).elim) (hs'.weaken fun s h ↦ ⟨hcb.of_after s h, ?_⟩))⟩
      exact fun h ↦ (hrel h trivial).elim
  | @failed x fs _ hlive hs =>
    refine wp_minor (hcb.before.failed hcb.unknown _ _).frame hs fun r' fs' hstep hrel ↦ ?_
    cases r' with
    | ok _ =>
      obtain rfl : fs' = Function.update fs (.edge (.temporary n)) none := hstep
      exact ⟨fun h ↦ hremoved (hs.safe h), fun s' hs' ↦ hok s' (.failed
        (fun hrel hx text ht hcr ↦ (hsame _ hlivePath).trans (hlive hrel hx text ht hcr)) hs')⟩
    | error x' =>
      obtain ⟨rfl, rfl⟩ : x' = .osError ∧ fs' = fs := hstep
      refine ⟨hs.safe, fun s' hs' ↦ herror _ s' (.failed
        (fun h ↦ (hrel h trivial).elim) (hs'.weaken fun s h ↦ ⟨h.1, ?_⟩))⟩
      exact fun h ↦ (hrel h trivial).elim

/-- **What `apply` does while it holds the lock.** -/
theorem wp_applyLocked (hcb : CallbackSpec W cb D D' U Fact) (m : EdgeConfigManager)
    {routes : List EdgeRouteTarget} (hrendered : renderEdgeRoutes routes = .ok rendered)
    {change : Option EdgeRouteChange} (all : Bool)
    (hchange : W.strict → ∀ hostname, change.bind EdgeRouteChange.previousHostname = some hostname →
      isHostname hostname = true) (hs : W.Stage D fs s) {Q : Except Exc Unit → σ → Prop}
    (hunlock : ∀ r s', Applied W D D' U rendered (fs livePath) r s' →
      wp M (Py.file .flockUnlock) (andThen M (fun _ ↦ .ofExcept r) Q) s')
    (hraised : ∀ x s', Applied W D D' U rendered (fs livePath) (.error x) s' → Q (.error x) s') :
    wp M ((m.applyLocked routes rendered change cb all).run {}) Q s := by
  refine wp_run ?_
  unfold EdgeConfigManager.applyLocked
  rw [wpl_tryFinally, wpl_tryCatch]
  have hfinally : ∀ r l s', Applied W D D' U rendered (fs livePath) r s' ∧ CandidateTemporary l →
      wpl M EdgeConfigManager.applyFinally (afterFinally (fun r _ s' ↦ Q r s') r) l s' := by
    rintro r l s' ⟨happlied, hpath⟩
    unfold EdgeConfigManager.applyFinally
    rw [wpl_bind, wpl_get, andThenL_ok, wpl_bind, wpl_liftM]
    refine wp_removeCandidate hcb happlied hpath (fun s'' h ↦ ?_) fun x s'' h ↦ ?_
    · rw [andThenL_ok, wpl_liftM]
      refine wp_mono (hunlock r s'' h) fun r' s₃ hr' ↦ ?_
      cases r' with
      | ok _ => rwa [andThen_ok, wp_ofExcept] at hr'
      | error x => exact hr'
    · exact hraised x s'' h
  refine wpl_mono (wpl_applyBody hcb m hrendered all hchange hs) fun r l s' hbody ↦ ?_
  cases r with
  | ok _ =>
    cases hbody with
    | done hlive hjournal hpath hs =>
      exact hfinally _ l s' ⟨.done hlive hjournal hs, fun p hp ↦ by simp [hpath] at hp⟩
  | error x =>
    rw [orElseL_error]
    exact wpl_mono (wpl_applyExcept hcb m (renderEdgeRoutes_noCarriageReturn hrendered) change hbody)
      fun r' l' s'' h ↦ hfinally r' l' s'' h

end Body

end Ownership

end Heimdall
