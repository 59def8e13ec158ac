import Heimdall.Edge.Config
import Heimdall.Files

/-!
# The journal of a transaction

A journal is written from a transaction and read back by whoever finds it after a crash. The text
of a valid transaction reads back as that transaction (`EdgeTransaction.parse_text`). `JournalOk` is
what a reader relies on: a journal that exists is accepted, and the live file is one of the two
contents it records.
-/

namespace Heimdall

/-- A text the edge configuration may hold: bounded, and the same when it is read back. -/
structure ConfigText (s : String) : Prop where
  bounded : s.utf8ByteSize ≤ maxConfigBytes
  noCarriageReturn : NoCarriageReturn s

theorem configText_noRoutesConfig : ConfigText noRoutesConfig := ⟨by decide, by decide⟩

theorem configText_renderEdgeRoutes {routes : List EdgeRouteTarget} {text : String}
    (h : renderEdgeRoutes routes = .ok text) : ConfigText text :=
  ⟨renderEdgeRoutes_bounded h, renderEdgeRoutes_noCarriageReturn h⟩

namespace EdgeTransaction

/-- What a transaction must satisfy to be read back. -/
structure Valid (tx : EdgeTransaction) : Prop where
  previous : ConfigText tx.previous
  candidate : ConfigText tx.candidate
  previousHostname : ∀ hostname, tx.previousHostname = some hostname → isHostname hostname = true

theorem Valid.withPhase {tx : EdgeTransaction} (h : tx.Valid) (phase : EdgeTransactionPhase) :
    { tx with phase := phase }.Valid := ⟨h.previous, h.candidate, h.previousHostname⟩

theorem printable_value (tx : EdgeTransaction) : tx.value.Printable := by
  have hkeys : ["candidate", "phase", "previous", "previous_hostname", "version"].Nodup := by decide
  refine ⟨?_, hkeys⟩
  cases tx.previousHostname <;> simp [Json.Value.PrintableFields, Json.Value.Printable]

theorem readPhase_value (phase : EdgeTransactionPhase) :
    readPhase (.str phase.value) = some phase := by
  cases phase <;> rfl

theorem text_noCarriageReturn (tx : EdgeTransaction) : NoCarriageReturn tx.text := by
  have hprint : NoCarriageReturn (Json.dumps true tx.value) := by
    intro hmem
    rw [Json.dumps, String.toList_ofList] at hmem
    exact absurd (Json.graphic_print true tx.value _ hmem) (by decide)
  exact noCarriageReturn_append.mpr ⟨hprint, by decide⟩

theorem loads_text (tx : EdgeTransaction) : Json.loads tx.text = some tx.value :=
  Json.loads_dumps true tx.printable_value (List.all_eq_true.mp (by decide))

/-- **Round trip of the journal**: the text of a valid transaction is accepted as it was. -/
theorem parse_text {tx : EdgeTransaction} (h : tx.Valid) : parseTransaction tx.text = some tx := by
  have hprev : boundedConfig (.str tx.previous) = some tx.previous := if_pos h.previous.bounded
  have hcand : boundedConfig (.str tx.candidate) = some tx.candidate := if_pos h.candidate.bounded
  obtain ⟨previous, candidate, previousHostname, phase⟩ := tx
  rw [parseTransaction, loads_text]
  cases previousHostname with
  | none =>
    simp [value, transactionKeys, List.lookup, readPhase_value, hprev, hcand, readPreviousHostname,
      isTwo]
  | some hostname =>
    have hhost : isHostname hostname = true := h.previousHostname hostname rfl
    simp [value, transactionKeys, List.lookup, readPhase_value, hprev, hcand, readPreviousHostname,
      isTwo, hhost]

end EdgeTransaction

/-- A journal that exists is accepted, and the live file is one of its two contents. -/
structure JournalOk (fs : FileSystem) : Prop where
  live : ∀ text, fs livePath = some text → ConfigText text
  journal : ∀ raw, fs journalPath = some raw → ∃ tx, parseTransaction (decodeText raw) = some tx
    ∧ (fs livePath = some tx.previous ∨ fs livePath = some tx.candidate)

namespace JournalOk

variable {fs fs' : FileSystem}

/-- Only the two files matter. -/
theorem congr (h : JournalOk fs) (hlive : fs' livePath = fs livePath)
    (hjournal : fs' journalPath = fs journalPath) : JournalOk fs' := by
  refine ⟨fun text ht ↦ h.live text (hlive ▸ ht), fun raw hraw ↦ ?_⟩
  rw [hlive]
  exact h.journal raw (hjournal ▸ hraw)

theorem of_noJournal (hlive : ∀ text, fs livePath = some text → ConfigText text)
    (hjournal : fs journalPath = none) : JournalOk fs :=
  ⟨hlive, fun raw hraw ↦ by simp [hjournal] at hraw⟩

/-- A journal needs a live file. -/
theorem journal_eq_none (h : JournalOk fs) (hlive : fs livePath = none) :
    fs journalPath = none := by
  cases hj : fs journalPath with
  | none => rfl
  | some raw =>
    obtain ⟨tx, -, hprev | hcand⟩ := h.journal raw hj
    · simp [hlive] at hprev
    · simp [hlive] at hcand

theorem of_transaction {tx : EdgeTransaction} (hv : tx.Valid)
    (hjournal : fs journalPath = some tx.text)
    (hlive : fs livePath = some tx.previous ∨ fs livePath = some tx.candidate) : JournalOk fs := by
  refine ⟨fun text ht ↦ ?_, fun raw hraw ↦ ⟨tx, ?_, hlive⟩⟩
  · rcases hlive with h | h <;> obtain rfl : _ = text := Option.some.inj (h.symm.trans ht)
    · exact hv.previous
    · exact hv.candidate
  · obtain rfl : tx.text = raw := Option.some.inj (hjournal.symm.trans hraw)
    rw [decodeText_eq_self tx.text_noCarriageReturn, EdgeTransaction.parse_text hv]

end JournalOk

end Heimdall
