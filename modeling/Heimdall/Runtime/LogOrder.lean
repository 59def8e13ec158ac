import Heimdall.Runtime.LogSnapshot

/-!
# The order of the lines of a snapshot

A snapshot is meant to hold the latest lines of both outputs in the order of the instants their
timestamps denote. `serviceLogLines` sorts the texts of the timestamps, with the order of printing
among equal texts, and keeps the end of the sorted list. The pattern it accepts allows a fraction of
any length up to nine digits and any offset from UTC, and texts of different forms are not ordered
as their instants are: `.` comes before `Z`, so a line at half past a second sorts before one at the
second.

`latestLines_iff` says when the lines are right. A line is *late* when fewer than `serviceLogTail`
accepted lines come after it in the order of the texts; these are the lines that are kept, and the
texts have to be ordered as the instants are wherever the later of two lines is late.
-/

/-! ## The end of a sorted list -/

namespace List

variable {α : Type} {R : α → α → Prop} {l : List α}

/-- The last `k` members of a sorted list are those that fewer than `k` members come after. -/
theorem Pairwise.mem_drop_iff [DecidableRel R] (h : l.Pairwise R) (hasymm : ∀ a b, R a b → ¬ R b a)
    {b : α} {k : ℕ} : b ∈ l.drop (l.length - k) ↔ b ∈ l ∧ l.countP (fun c ↦ R b c) < k := by
  have hirrefl : ∀ a, ¬ R a a := fun a haa ↦ hasymm a a haa haa
  induction l with
  | nil => simp
  | cons a l ih =>
    rw [pairwise_cons] at h
    by_cases hk : (a :: l).length ≤ k
    · rw [Nat.sub_eq_zero_of_le hk, drop_zero, iff_self_and]
      intro hb
      refine lt_of_lt_of_le (lt_of_le_of_ne countP_le_length ?_) hk
      intro hall
      exact hirrefl b (by simpa using countP_eq_length.mp hall b hb)
    · have hdrop : (a :: l).length - k = (l.length - k) + 1 := by
        simp only [length_cons] at hk ⊢
        omega
      rw [hdrop, drop_succ_cons, mem_cons]
      refine (ih h.2).trans ⟨?_, ?_⟩
      · rintro ⟨hb, hcount⟩
        refine ⟨.inr hb, ?_⟩
        rwa [countP_cons_of_neg (by simpa using hasymm a b (h.1 b hb))]
      · rintro ⟨rfl | hb, hcount⟩
        -- everything comes after the head, which is not among the last `k`
        · have hall : l.countP (fun c ↦ R b c) = l.length :=
            countP_eq_length.mpr fun c hc ↦ by simpa using h.1 c hc
          rw [countP_cons_of_neg (by simpa using hirrefl b), hall] at hcount
          simp only [length_cons] at hk
          omega
        · rw [countP_cons_of_neg (by simpa using hasymm a b (h.1 b hb))] at hcount
          exact ⟨hb, hcount⟩

/-- A relation holds along a sorted list when it holds of its ordered pairs. -/
theorem Pairwise.pairwise_iff {Q : α → α → Prop} (h : l.Pairwise R)
    (hasymm : ∀ a b, R a b → ¬ R b a) : l.Pairwise Q ↔ ∀ a ∈ l, ∀ b ∈ l, R a b → Q a b := by
  induction l with
  | nil => simp
  | cons x l ih =>
    rw [pairwise_cons] at h
    rw [pairwise_cons, ih h.2]
    constructor
    · rintro ⟨hx, hl⟩ a ha b hb hab
      rcases mem_cons.mp ha with rfl | ha'
      · rcases mem_cons.mp hb with rfl | hb'
        · exact absurd hab (hasymm _ _ hab)
        · exact hx b hb'
      · rcases mem_cons.mp hb with rfl | hb'
        · exact absurd hab (hasymm _ _ (h.1 a ha'))
        · exact hl a ha' b hb' hab
    · intro hall
      exact ⟨fun b hb ↦ hall x mem_cons_self b (mem_cons_of_mem _ hb) (h.1 b hb),
        fun a ha b hb ↦ hall a (mem_cons_of_mem _ ha) b (mem_cons_of_mem _ hb)⟩

end List

namespace Heimdall

open Text Symbol

/-! ## Instants -/

/-- The value of a decimal digit of any script. -/
def digitValue (c : Char) : ℕ :=
  match decimalZeros.find? fun z ↦ z ≤ c.toNat && c.toNat < z + 10 with
  | some z => c.toNat - z
  | none => 0

def decimalValue (cs : List Char) : ℕ := cs.foldl (fun n c ↦ 10 * n + digitValue c) 0

/-- The days from 1970-01-01 to a day of the Gregorian calendar. A year is counted from March, so
that the day that may be missing comes last. -/
def daysFromEpoch (year month day : ℤ) : ℤ :=
  let year := if month ≤ 2 then year - 1 else year
  let month := if month ≤ 2 then month + 9 else month - 3
  365 * year + year / 4 - year / 100 + year / 400 + (153 * month + 2) / 5 + day - 1 - 719468

/-- The nanoseconds after a full second: a fraction has up to nine digits. -/
def nanoseconds : List Char → ℕ
  | '.' :: cs =>
    decimalValue (cs.takeWhile isDecimal) * 10 ^ (9 - (cs.takeWhile isDecimal).length)
  | _ => 0

/-- The minutes by which a zone is ahead of UTC. -/
def zoneMinutes : List Char → ℤ
  | '+' :: cs => decimalValue (cs.take 2) * 60 + decimalValue ((cs.drop 3).take 2)
  | '-' :: cs => -(decimalValue (cs.take 2) * 60 + decimalValue ((cs.drop 3).take 2))
  | _ => 0

/-- The instant a timestamp denotes, in nanoseconds from 1970-01-01T00:00:00Z. -/
def instantOf (cs : List Char) : ℤ :=
  let field (start width : ℕ) : ℤ := decimalValue ((cs.drop start).take width)
  let minutes := (daysFromEpoch (field 0 4) (field 5 2) (field 8 2) * 24 + field 11 2) * 60
    + field 14 2 - zoneMinutes ((dropFraction (cs.drop 19)).getD [])
  (minutes * 60 + field 17 2) * 10 ^ 9 + nanoseconds (cs.drop 19)

example : instantOf "2000-03-01T00:00:00.5+09:00".toList
    = instantOf "2000-02-29T15:00:00.500Z".toList := by decide

example : instantOf "1970-01-01T00:00:00Z".toList = 0 := by decide

/-! ## The lines of the outputs -/

section Lines

variable {α : Type} [Symbol α]

/-- The lines of both outputs, in the order in which they are read. -/
def outputLines (stdout stderr : List α) : List (ServiceLogStream × List α) :=
  (splitlines stdout).map (ServiceLogStream.stdout, ·)
    ++ (splitlines stderr).map (ServiceLogStream.stderr, ·)

/-- What stands before the first space of a line. -/
def lineTimestamp (rawLine : List α) : List Char :=
  (partition (fun a ↦ char a == ' ') rawLine).1.map char

/-- The line has a space, and a timestamp before it. -/
def isAccepted (rawLine : List α) : Bool :=
  !(partition (fun a ↦ char a == ' ') rawLine).2.1.isEmpty
    && isDockerTimestamp (lineTimestamp rawLine)

/-- A line read as a line with a timestamp, and whether its message is cut. -/
def readLine (redactions : List (List Char)) (line : ServiceLogStream × List α) :
    LogLine α × Bool :=
  let (timestamp, _, message) := partition (fun a ↦ char a == ' ') line.2
  let bounded := boundedUtf8 (redact char mark redactions message) serviceLogMaxLineBytes
  ({ timestamp, stream := line.1, message := bounded.1 }, bounded.2)

variable {redactions : List (List Char)} {stdout stderr : List α} {captureTruncated : Bool}

theorem serviceLogLine_eq (stream : ServiceLogStream) (rawLine : List α) :
    serviceLogLine redactions stream rawLine
      = if isAccepted rawLine then some (readLine redactions (stream, rawLine)) else none := by
  simp only [serviceLogLine, isAccepted, readLine, lineTimestamp]
  by_cases h : (partition (fun a ↦ char a == ' ') rawLine).2.1.isEmpty <;>
    by_cases h' : isDockerTimestamp ((partition (fun a ↦ char a == ' ') rawLine).1.map char) <;>
    simp [h, h']

def acceptedLines (stdout stderr : List α) : List (ServiceLogStream × List α) :=
  (outputLines stdout stderr).filter fun line ↦ isAccepted line.2

def rejectedLines (stdout stderr : List α) : List (ServiceLogStream × List α) :=
  (outputLines stdout stderr).filter fun line ↦ !isAccepted line.2

/-! ## The order of the texts -/

/-- The timestamp and the place of a line are before those of another. -/
def TextBefore (a b : (ServiceLogStream × List α) × ℕ) : Prop :=
  lineTimestamp a.1.2 < lineTimestamp b.1.2
    ∨ lineTimestamp a.1.2 = lineTimestamp b.1.2 ∧ a.2 < b.2

instance : DecidableRel (TextBefore (α := α)) := fun _ _ ↦ inferInstanceAs (Decidable (_ ∨ _))

theorem TextBefore.asymm (a b : (ServiceLogStream × List α) × ℕ) (h : TextBefore a b) :
    ¬ TextBefore b a := by
  rintro (h' | ⟨heq, h'⟩) <;> obtain h | ⟨heq', h⟩ := h
  · exact List.lt_asymm h h'
  · exact List.lt_irrefl _ (heq' ▸ h')
  · exact List.lt_irrefl _ (heq ▸ h)
  · exact Nat.lt_asymm h h'

/-- Fewer lines than a snapshot holds come after this one. -/
def Late (stdout stderr : List α) (b : (ServiceLogStream × List α) × ℕ) : Prop :=
  (acceptedLines stdout stderr).zipIdx.countP (fun c ↦ TextBefore b c) < serviceLogTail

instance (b : (ServiceLogStream × List α) × ℕ) : Decidable (Late stdout stderr b) :=
  inferInstanceAs (Decidable (_ < _))

/-! ## The entries of a snapshot -/

/-- The entries whose lines are returned, with their places in the order of reading. -/
def snapshotEntries (redactions : List (List Char)) (stdout stderr : List α) :
    List (LogLine α × ℕ) :=
  let raw := (splitlines stdout).map (serviceLogLine redactions .stdout)
    ++ (splitlines stderr).map (serviceLogLine redactions .stderr)
  let entries := ((raw.filterMap id).map Prod.fst).zipIdx.mergeSort entryLE
  entries.drop (entries.length - serviceLogTail)

theorem serviceLogLines_fst :
    (serviceLogLines stdout stderr captureTruncated redactions).1
      = (snapshotEntries redactions stdout stderr).map Prod.fst := by
  rw [serviceLogLines, snapshotEntries]

/-- The entry of an accepted line. -/
def entryOf (redactions : List (List Char)) (line : (ServiceLogStream × List α) × ℕ) :
    LogLine α × ℕ := ((readLine redactions line.1).1, line.2)

/-- The accepted lines in the order of the entries. -/
def sortedLines (redactions : List (List Char)) (stdout stderr : List α) :
    List ((ServiceLogStream × List α) × ℕ) :=
  (acceptedLines stdout stderr).zipIdx.mergeSort fun a b ↦
    entryLE (entryOf redactions a) (entryOf redactions b)

theorem entryLE_entryOf (a b : (ServiceLogStream × List α) × ℕ) :
    entryLE (entryOf redactions a) (entryOf redactions b) = true
      ↔ lineTimestamp a.1.2 < lineTimestamp b.1.2
        ∨ lineTimestamp a.1.2 = lineTimestamp b.1.2 ∧ a.2 ≤ b.2 := by
  rw [entryLE, Bool.or_eq_true, Bool.and_eq_true, decide_eq_true_eq, decide_eq_true_eq,
    decide_eq_true_eq]
  rfl

theorem sortedLines_perm : (sortedLines redactions stdout stderr).Perm
    (acceptedLines stdout stderr).zipIdx := List.mergeSort_perm _ _

theorem length_sortedLines :
    (sortedLines redactions stdout stderr).length = (acceptedLines stdout stderr).length := by
  rw [sortedLines_perm.length_eq, List.length_zipIdx]

/-- No two accepted lines have the same place, so the sorted lines are strictly ordered. -/
theorem sortedLines_pairwise : (sortedLines redactions stdout stderr).Pairwise TextBefore := by
  have hle : (sortedLines redactions stdout stderr).Pairwise fun a b ↦
      entryLE (entryOf redactions a) (entryOf redactions b) = true := by
    refine List.pairwise_mergeSort (fun a b c hab hbc ↦ ?_) (fun a b ↦ ?_) _
    · rw [entryLE_entryOf] at hab hbc ⊢
      obtain hab | ⟨hab, hab'⟩ := hab <;> obtain hbc | ⟨hbc, hbc'⟩ := hbc
      · exact .inl (List.lt_trans hab hbc)
      · exact .inl (hbc ▸ hab)
      · exact .inl (hab ▸ hbc)
      · exact .inr ⟨hab.trans hbc, hab'.trans hbc'⟩
    · rw [Bool.or_eq_true, entryLE_entryOf, entryLE_entryOf]
      by_cases hab : lineTimestamp a.1.2 < lineTimestamp b.1.2
      · exact .inl (.inl hab)
      · by_cases hba : lineTimestamp b.1.2 < lineTimestamp a.1.2
        · exact .inr (.inl hba)
        · have heq : lineTimestamp a.1.2 = lineTimestamp b.1.2 :=
            List.le_antisymm (List.not_lt.mp hba) (List.not_lt.mp hab)
          exact (Nat.le_total a.2 b.2).imp (fun h ↦ .inr ⟨heq, h⟩) fun h ↦ .inr ⟨heq.symm, h⟩
  have hplaces : ((sortedLines redactions stdout stderr).map Prod.snd).Nodup := by
    rw [(sortedLines_perm.map _).nodup_iff, List.zipIdx_map_snd]
    exact List.nodup_range'
  refine (hle.and (List.pairwise_map.mp hplaces)).imp fun {a b} h ↦ ?_
  obtain ⟨h, hne⟩ := h
  rw [entryLE_entryOf] at h
  exact h.imp_right fun h ↦ ⟨h.1, lt_of_le_of_ne h.2 hne⟩

theorem filterMap_serviceLogLine :
    ((splitlines stdout).map (serviceLogLine redactions .stdout)
      ++ (splitlines stderr).map (serviceLogLine redactions .stderr)).filterMap id
      = (acceptedLines stdout stderr).map (readLine redactions) := by
  have h : ∀ (stream : ServiceLogStream) (t : List α),
      ((splitlines t).map (serviceLogLine redactions stream)).filterMap id
        = (((splitlines t).map (stream, ·)).filter fun line ↦ isAccepted line.2).map
          (readLine redactions) := by
    intro stream t
    rw [List.filterMap_map]
    induction splitlines t with
    | nil => rfl
    | cons rawLine lines ih =>
      rw [List.filterMap_cons, List.map_cons, Function.comp_apply, id, serviceLogLine_eq]
      by_cases hline : isAccepted rawLine
      · rw [if_pos hline, List.filter_cons_of_pos (by exact hline), List.map_cons, ← ih]
      · rw [if_neg hline, List.filter_cons_of_neg (by exact hline), ← ih]
  rw [List.filterMap_append, h, h, acceptedLines, outputLines, List.filter_append, List.map_append]

/-- The accepted lines that are kept. -/
def keptLines (redactions : List (List Char)) (stdout stderr : List α) :
    List ((ServiceLogStream × List α) × ℕ) :=
  (sortedLines redactions stdout stderr).drop
    ((sortedLines redactions stdout stderr).length - serviceLogTail)

theorem snapshotEntries_eq : snapshotEntries redactions stdout stderr
    = (keptLines redactions stdout stderr).map (entryOf redactions) := by
  have hsort : (((acceptedLines stdout stderr).map (readLine redactions)).map
      Prod.fst).zipIdx.mergeSort entryLE
      = (sortedLines redactions stdout stderr).map (entryOf redactions) := by
    rw [sortedLines, List.map_mergeSort (f := entryOf redactions) (s := entryLE) fun a _ b _ ↦ rfl, List.map_map,
      List.zipIdx_map]
    rfl
  simp only [snapshotEntries, filterMap_serviceLogLine, hsort, keptLines, List.length_map,
    List.map_drop]

theorem mem_keptLines {b : (ServiceLogStream × List α) × ℕ} :
    b ∈ keptLines redactions stdout stderr
      ↔ b ∈ (acceptedLines stdout stderr).zipIdx ∧ Late stdout stderr b := by
  rw [keptLines, sortedLines_pairwise.mem_drop_iff TextBefore.asymm, sortedLines_perm.mem_iff,
    sortedLines_perm.countP_eq, Late]

theorem keptLines_pairwise_iff {Q : (ServiceLogStream × List α) × ℕ → _ → Prop} :
    (keptLines redactions stdout stderr).Pairwise Q
      ↔ ∀ b ∈ (acceptedLines stdout stderr).zipIdx, Late stdout stderr b →
        ∀ a ∈ (acceptedLines stdout stderr).zipIdx, Late stdout stderr a → TextBefore a b →
          Q a b := by
  have hpairwise : (keptLines redactions stdout stderr).Pairwise TextBefore :=
    sortedLines_pairwise.sublist (List.drop_sublist _ _)
  rw [hpairwise.pairwise_iff TextBefore.asymm]
  simp only [mem_keptLines]
  grind

/-! ## The latest lines -/

def LogLine.instant (line : LogLine α) : ℤ := instantOf (line.timestamp.map char)

/-- The lines of both outputs read as lines of a snapshot, all of them. -/
def printedLines (redactions : List (List Char)) (stdout stderr : List α) : List (LogLine α) :=
  (outputLines stdout stderr).map fun line ↦ (readLine redactions line).1

/-- What a snapshot promises: the latest lines in the order of their instants, those of one output
in the order in which they were printed, and a mark if anything is missing. -/
structure LatestLines (redactions : List (List Char)) (stdout stderr : List α)
    (captureTruncated : Bool) : Prop where
  ordered : (serviceLogLines stdout stderr captureTruncated redactions).1.Pairwise
    fun a b ↦ a.instant ≤ b.instant
  sameStream : (snapshotEntries redactions stdout stderr).Pairwise
    fun a b ↦ a.1.stream = b.1.stream → a.2 < b.2
  latest : ∃ dropped : List (LogLine α),
    (dropped ++ (serviceLogLines stdout stderr captureTruncated redactions).1).Perm
        (printedLines redactions stdout stderr)
      ∧ (serviceLogLines stdout stderr captureTruncated redactions).1.length
        = min serviceLogTail (printedLines redactions stdout stderr).length
      ∧ ∀ a ∈ dropped, ∀ b ∈ (serviceLogLines stdout stderr captureTruncated redactions).1,
        a.instant ≤ b.instant
  truncated : captureTruncated = true
      ∨ (serviceLogLines stdout stderr captureTruncated redactions).1.length
        < (printedLines redactions stdout stderr).length
      ∨ (∃ line ∈ outputLines stdout stderr, (readLine redactions line).2 = true) →
    (serviceLogLines stdout stderr captureTruncated redactions).2 = true

/-- The texts of the timestamps are ordered as their instants are, where it matters. -/
structure TextsChronological (stdout stderr : List α) : Prop where
  accepted : rejectedLines stdout stderr = []
    ∨ serviceLogTail ≤ (acceptedLines stdout stderr).length
  rejected : ∀ b ∈ (acceptedLines stdout stderr).zipIdx, Late stdout stderr b →
    ∀ a ∈ rejectedLines stdout stderr,
      instantOf (lineTimestamp a.2) ≤ instantOf (lineTimestamp b.1.2)
  instants : ∀ b ∈ (acceptedLines stdout stderr).zipIdx, Late stdout stderr b →
    ∀ a ∈ (acceptedLines stdout stderr).zipIdx, TextBefore a b →
      instantOf (lineTimestamp a.1.2) ≤ instantOf (lineTimestamp b.1.2)
  printed : ∀ b ∈ (acceptedLines stdout stderr).zipIdx, Late stdout stderr b →
    ∀ a ∈ (acceptedLines stdout stderr).zipIdx, Late stdout stderr a → TextBefore a b →
      a.1.1 = b.1.1 → a.2 < b.2

theorem serviceLogLines_fst_eq :
    (serviceLogLines stdout stderr captureTruncated redactions).1
      = (keptLines redactions stdout stderr).map fun e ↦ (readLine redactions e.1).1 := by
  rw [serviceLogLines_fst, snapshotEntries_eq, List.map_map]
  rfl

theorem length_serviceLogLines :
    (serviceLogLines stdout stderr captureTruncated redactions).1.length
      = min serviceLogTail (acceptedLines stdout stderr).length := by
  rw [serviceLogLines_fst_eq, List.length_map, keptLines, List.length_drop, length_sortedLines]
  omega

theorem length_printedLines : (printedLines redactions stdout stderr).length
    = (acceptedLines stdout stderr).length + (rejectedLines stdout stderr).length := by
  rw [printedLines, List.length_map, ← List.length_append]
  exact (List.filter_append_perm (fun line : ServiceLogStream × List α ↦ isAccepted line.2)
    _).length_eq.symm

/-- The lines that are not returned. -/
def droppedLines (redactions : List (List Char)) (stdout stderr : List α) : List (LogLine α) :=
  (rejectedLines stdout stderr).map (fun line ↦ (readLine redactions line).1)
    ++ ((sortedLines redactions stdout stderr).take
      ((sortedLines redactions stdout stderr).length - serviceLogTail)).map
        fun e ↦ (readLine redactions e.1).1

theorem droppedLines_append_perm :
    (droppedLines redactions stdout stderr
        ++ (serviceLogLines stdout stderr captureTruncated redactions).1).Perm
      (printedLines redactions stdout stderr) := by
  have hsorted : ((sortedLines redactions stdout stderr).map fun e ↦ (readLine redactions e.1).1).Perm
      ((acceptedLines stdout stderr).map fun line ↦ (readLine redactions line).1) := by
    refine (sortedLines_perm.map _).trans ?_
    have hfst := List.map_map (f := Prod.fst) (g := fun line ↦ (readLine redactions line).1)
      (l := (acceptedLines stdout stderr).zipIdx)
    rw [List.zipIdx_map_fst] at hfst
    rw [hfst]
    rfl
  rw [droppedLines, serviceLogLines_fst_eq, keptLines, List.append_assoc, ← List.map_append,
    List.take_append_drop]
  refine (hsorted.append_left _).trans ?_
  rw [← List.map_append]
  exact (List.perm_append_comm.trans (List.filter_append_perm _ _)).map _

/-- The lines are in the order of their instants when the texts of the late ones are. -/
theorem ordered_iff :
    ((serviceLogLines stdout stderr captureTruncated redactions).1.Pairwise
        fun a b ↦ a.instant ≤ b.instant)
      ↔ ∀ b ∈ (acceptedLines stdout stderr).zipIdx, Late stdout stderr b →
        ∀ a ∈ (acceptedLines stdout stderr).zipIdx, Late stdout stderr a → TextBefore a b →
          instantOf (lineTimestamp a.1.2) ≤ instantOf (lineTimestamp b.1.2) := by
  rw [serviceLogLines_fst_eq, List.pairwise_map]
  exact keptLines_pairwise_iff

theorem sameStream_iff :
    ((snapshotEntries redactions stdout stderr).Pairwise
        fun a b ↦ a.1.stream = b.1.stream → a.2 < b.2)
      ↔ ∀ b ∈ (acceptedLines stdout stderr).zipIdx, Late stdout stderr b →
        ∀ a ∈ (acceptedLines stdout stderr).zipIdx, Late stdout stderr a → TextBefore a b →
          a.1.1 = b.1.1 → a.2 < b.2 := by
  rw [snapshotEntries_eq, List.pairwise_map]
  exact keptLines_pairwise_iff

/-- A sorted line that is not kept is not late, and every late line comes after it. -/
theorem mem_take_sortedLines {a : (ServiceLogStream × List α) × ℕ} :
    a ∈ (sortedLines redactions stdout stderr).take
        ((sortedLines redactions stdout stderr).length - serviceLogTail)
      ↔ a ∈ (acceptedLines stdout stderr).zipIdx ∧ ¬ Late stdout stderr a := by
  have hnodup : (sortedLines redactions stdout stderr).Nodup := by
    refine sortedLines_pairwise.imp fun {a b} h ↦ ?_
    rintro rfl
    exact TextBefore.asymm a a h h
  rw [← List.take_append_drop ((sortedLines redactions stdout stderr).length - serviceLogTail)
    (sortedLines redactions stdout stderr)] at hnodup
  have hkept : a ∈ keptLines redactions stdout stderr
      ↔ a ∈ (acceptedLines stdout stderr).zipIdx ∧ Late stdout stderr a := mem_keptLines
  have hmem : a ∈ sortedLines redactions stdout stderr ↔ a ∈ (acceptedLines stdout stderr).zipIdx :=
    sortedLines_perm.mem_iff
  rw [← List.take_append_drop ((sortedLines redactions stdout stderr).length - serviceLogTail)
    (sortedLines redactions stdout stderr), List.mem_append, ← keptLines] at hmem
  have hdisjoint := List.disjoint_of_nodup_append hnodup
  constructor
  · intro ha
    exact ⟨hmem.mp (.inl ha), fun hlate ↦
      hdisjoint ha (hkept.mpr ⟨hmem.mp (.inl ha), hlate⟩)⟩
  · rintro ⟨ha, hlate⟩
    exact (hmem.mpr ha).resolve_right fun h ↦ hlate (hkept.mp h).2

theorem dropped_iff :
    (∀ a ∈ droppedLines redactions stdout stderr,
        ∀ b ∈ (serviceLogLines stdout stderr captureTruncated redactions).1,
          a.instant ≤ b.instant)
      ↔ ∀ b ∈ (acceptedLines stdout stderr).zipIdx, Late stdout stderr b →
        (∀ a ∈ rejectedLines stdout stderr,
          instantOf (lineTimestamp a.2) ≤ instantOf (lineTimestamp b.1.2))
        ∧ ∀ a ∈ (acceptedLines stdout stderr).zipIdx, ¬ Late stdout stderr a → TextBefore a b →
          instantOf (lineTimestamp a.1.2) ≤ instantOf (lineTimestamp b.1.2) := by
  rw [serviceLogLines_fst_eq]
  simp only [List.forall_mem_map]
  constructor
  · intro h b hb hlate
    have hkept : b ∈ keptLines redactions stdout stderr := mem_keptLines.mpr ⟨hb, hlate⟩
    refine ⟨fun a ha ↦ ?_, fun a ha hnot _ ↦ ?_⟩
    · exact h _ (List.mem_append_left _ (List.mem_map_of_mem ha)) b hkept
    · exact h _ (List.mem_append_right _
        (List.mem_map_of_mem (mem_take_sortedLines.mpr ⟨ha, hnot⟩))) b hkept
  · intro h a ha b hkept
    obtain ⟨hb, hlate⟩ := mem_keptLines.mp hkept
    rcases List.mem_append.mp ha with ha | ha
    · obtain ⟨line, hline, rfl⟩ := List.mem_map.mp ha
      exact (h b hb hlate).1 line hline
    · obtain ⟨e, he, rfl⟩ := List.mem_map.mp ha
      obtain ⟨hmem, hnot⟩ := mem_take_sortedLines.mp he
      -- what is not kept comes before what is kept
      have hsorted : (sortedLines redactions stdout stderr).Pairwise TextBefore :=
        sortedLines_pairwise
      rw [← List.take_append_drop
        ((sortedLines redactions stdout stderr).length - serviceLogTail)
        (sortedLines redactions stdout stderr), List.pairwise_append] at hsorted
      exact (h b hb hlate).2 e hmem hnot (hsorted.2.2 e he b hkept)

/-- What the mark stands for is always marked. -/
theorem truncated_of_missing
    (h : captureTruncated = true
      ∨ (serviceLogLines stdout stderr captureTruncated redactions).1.length
        < (printedLines redactions stdout stderr).length
      ∨ ∃ line ∈ outputLines stdout stderr, (readLine redactions line).2 = true) :
    (serviceLogLines stdout stderr captureTruncated redactions).2 = true := by
  have hraw : (splitlines stdout).map (serviceLogLine redactions .stdout)
      ++ (splitlines stderr).map (serviceLogLine redactions .stderr)
      = (outputLines stdout stderr).map fun line ↦ serviceLogLine redactions line.1 line.2 := by
    rw [outputLines, List.map_append, List.map_map, List.map_map]
    rfl
  have hrejected : ∀ line ∈ outputLines stdout stderr, isAccepted line.2 = false →
      (serviceLogLines stdout stderr captureTruncated redactions).2 = true := by
    intro line hline hnot
    have hnone : ((outputLines stdout stderr).map fun line ↦
        serviceLogLine redactions line.1 line.2).any Option.isNone = true := by
      refine List.any_eq_true.mpr ⟨none, List.mem_map.mpr ⟨line, hline, ?_⟩, rfl⟩
      rw [serviceLogLine_eq, hnot, if_neg Bool.false_ne_true]
    simp only [serviceLogLines, hraw, hnone, Bool.or_true, Bool.true_or]
  rcases h with h | h | ⟨line, hline, hcut⟩
  · simp only [serviceLogLines, h, Bool.true_or]
  · rw [length_serviceLogLines, length_printedLines] at h
    by_cases hnone : rejectedLines stdout stderr = []
    · have hmany : serviceLogTail < (acceptedLines stdout stderr).length := by
        rw [hnone, List.length_nil] at h
        omega
      simp only [serviceLogLines, filterMap_serviceLogLine, List.length_mergeSort,
        List.length_zipIdx, List.length_map, hmany, decide_true, Bool.or_true]
    · obtain ⟨line, hline⟩ := List.exists_mem_of_ne_nil _ hnone
      obtain ⟨hline, hnot⟩ := List.mem_filter.mp hline
      exact hrejected line hline (by simpa using hnot)
  · by_cases haccepted : isAccepted line.2
    · have hany : ((acceptedLines stdout stderr).map (readLine redactions)).any Prod.snd = true :=
        List.any_eq_true.mpr ⟨_, List.mem_map_of_mem (List.mem_filter.mpr ⟨hline, haccepted⟩), hcut⟩
      simp only [serviceLogLines, filterMap_serviceLogLine, hany, Bool.or_true, Bool.true_or]
    · exact hrejected line hline (Bool.not_eq_true _ ▸ haccepted)

/-- A snapshot holds the latest lines in their order exactly when the texts of the timestamps are
ordered as their instants are. -/
theorem latestLines_iff (redactions : List (List Char)) (stdout stderr : List α)
    (captureTruncated : Bool) :
    LatestLines redactions stdout stderr captureTruncated ↔ TextsChronological stdout stderr := by
  constructor
  · intro h
    obtain ⟨dropped, hperm, hlength, hdropped⟩ := h.latest
    have hrest : dropped.Perm (droppedLines redactions stdout stderr) :=
      (List.perm_append_right_iff _).mp (hperm.trans droppedLines_append_perm.symm)
    have hbefore := dropped_iff.mp fun a ha ↦ hdropped a (hrest.mem_iff.mpr ha)
    refine ⟨?_, fun b hb hlate ↦ (hbefore b hb hlate).1, fun b hb hlate a ha hab ↦ ?_,
      sameStream_iff.mp h.sameStream⟩
    · rw [length_serviceLogLines, length_printedLines] at hlength
      rw [← List.length_eq_zero_iff]
      omega
    · by_cases ha' : Late stdout stderr a
      · exact ordered_iff.mp h.ordered b hb hlate a ha ha' hab
      · exact (hbefore b hb hlate).2 a ha ha' hab
  · intro h
    refine ⟨ordered_iff.mpr fun b hb hlate a ha _ hab ↦ h.instants b hb hlate a ha hab,
      sameStream_iff.mpr h.printed, ⟨droppedLines redactions stdout stderr,
        droppedLines_append_perm, ?_, ?_⟩, truncated_of_missing⟩
    · rw [length_serviceLogLines, length_printedLines]
      rcases h.accepted with hnone | hmany
      · rw [hnone, List.length_nil, Nat.add_zero]
      · omega
    · exact dropped_iff.mpr fun b hb hlate ↦
        ⟨h.rejected b hb hlate, fun a ha _ hab ↦ h.instants b hb hlate a ha hab⟩

end Lines

/-- A line printed at the second and one printed half a second later by the other output. -/
theorem not_latestLines_fraction :
    rejectedLines "2026-08-07T01:00:00Z a".toList "2026-08-07T01:00:00.5Z b".toList = []
      ∧ (∀ stream, ((outputLines "2026-08-07T01:00:00Z a".toList
          "2026-08-07T01:00:00.5Z b".toList).filter fun line ↦ line.1 = stream).Pairwise fun a b ↦
            instantOf (lineTimestamp a.2) ≤ instantOf (lineTimestamp b.2))
      ∧ ¬ LatestLines [] "2026-08-07T01:00:00Z a".toList "2026-08-07T01:00:00.5Z b".toList
          false := by
  refine ⟨by decide, fun stream ↦ by cases stream <;> decide, fun h ↦ ?_⟩
  have hinstants := ordered_iff.mp h.ordered
    ((.stdout, "2026-08-07T01:00:00Z a".toList), 0) (by decide) (by decide)
    ((.stderr, "2026-08-07T01:00:00.5Z b".toList), 1) (by decide) (by decide) (by decide)
  revert hinstants
  decide

end Heimdall
