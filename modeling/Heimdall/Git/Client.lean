import Heimdall.Deployments.Service
import Heimdall.Text.Spaces

/-!
# Reading the recent commits

`GitClient.recent_commits` has `git log` print a record for each commit: the hash, the name of the
author, the date and the subject with null characters between them, a record separator and a line
feed. `parseLog` splits the output at the record separators and drops what does not have four parts.

Nothing keeps a record separator out of a name or of a subject. In a subject it only cuts the subject
short; a commit with one in the name of its author is dropped (`parseLog_printLog`), so that the
first commit that is read need not be the head of the main branch (`parseLog_complete_iff`).
-/

namespace Text

/-- The line ends of text that is read from a process. -/
def universalNewlines : List Char → List Char
  | [] => []
  | '\r' :: '\n' :: t => '\n' :: universalNewlines t
  | '\r' :: t => '\n' :: universalNewlines t
  | c :: t => c :: universalNewlines t

end Text

namespace Heimdall

open Text Effect

/-! ## Parsing -/

structure Commit (τ : Type) where
  sha : String
  authorName : String
  committedAt : τ
  subject : String
deriving DecidableEq

section Parse

variable {τ : Type} (fromisoformat : List Char → Except Exc τ)

/-- What is made of a record; `none` when it is skipped. -/
def parseRecord (record : List Char) : Except Exc (Option (Commit τ)) :=
  match (strip record).splitOn '\x00' with
  | [sha, authorName, committedAt, subject] =>
    if sha.length ≠ 40 then .ok none
    else do
      let committedAt ← fromisoformat committedAt
      return some {
        sha := String.ofList sha
        authorName := String.ofList (authorName.take 200)
        committedAt
        subject := String.ofList (([' '].intercalate (words subject)).take 300) }
  | _ => .ok none

def parseRecords : List (List Char) → Except Exc (List (Commit τ))
  | [] => .ok []
  | record :: records => do
    let commit ← parseRecord fromisoformat record
    let commits ← parseRecords records
    return commit.toList ++ commits

/-- `_parse_log` -/
def parseLog (output : List Char) : Except Exc (List (Commit τ)) :=
  parseRecords fromisoformat (output.splitOn '\x1e')

end Parse

/-! ## Printing -/

def isDateChar (c : Char) : Bool := c.isDigit || c ∈ ['-', ':', 'T', '+', 'Z']

/-- A commit `git log` prints. Its date is one that `fromisoformat` reads. -/
structure PrintedCommit {τ : Type} (fromisoformat : List Char → Except Exc τ) where
  hash : String
  author : List Char
  date : List Char
  subject : List Char
  committedAt : τ
  hash_isCommitSha : isCommitSha hash = true
  author_text : '\x00' ∉ author ∧ '\n' ∉ author
  subject_text : '\x00' ∉ subject ∧ '\n' ∉ subject
  date_chars : ∀ c ∈ date, isDateChar c = true
  date_read : fromisoformat date = .ok committedAt

variable {τ : Type} {fromisoformat : List Char → Except Exc τ}

/-- The parts of a record. -/
def joinRecord (hash author date subject : List Char) : List Char :=
  hash ++ '\x00' :: (author ++ '\x00' :: (date ++ '\x00' :: subject))

/-- `--format=%H%x00%an%x00%aI%x00%s%x1e`, with the line feed `git log` puts after each commit. -/
def printLog (commits : List (PrintedCommit fromisoformat)) : List Char :=
  commits.flatMap fun c ↦ joinRecord c.hash.toList c.author c.date c.subject ++ ['\x1e', '\n']

/-! ## Records -/

section Text

variable {x t : List Char} {c : Char}

def newline (c : Char) : Char := if c = '\r' then '\n' else c

theorem universalNewlines_cons (hc : c ≠ '\r') (t : List Char) :
    Text.universalNewlines (c :: t) = c :: Text.universalNewlines t := by
  rw [Text.universalNewlines]
  · rintro u rfl
    exact absurd rfl hc
  · exact fun h ↦ hc h

theorem universalNewlines_append (hx : '\n' ∉ x) (hc : c ≠ '\n') (t : List Char) :
    Text.universalNewlines (x ++ c :: t) = x.map newline ++ Text.universalNewlines (c :: t) := by
  induction x with
  | nil => rfl
  | cons b x ih =>
    rw [List.mem_cons, not_or] at hx
    rw [List.cons_append, List.map_cons, List.cons_append, ← ih hx.2]
    by_cases hb : b = '\r'
    · subst hb
      -- what follows the carriage return is no line feed
      obtain ⟨d, u, hu, hd⟩ : ∃ d u, x ++ c :: t = d :: u ∧ d ≠ '\n' := by
        cases x with
        | nil => exact ⟨c, t, rfl, hc⟩
        | cons d x => exact ⟨d, x ++ c :: t, rfl, fun h ↦ hx.2 (h ▸ List.mem_cons_self)⟩
      rw [hu, Text.universalNewlines]
      · rfl
      · rintro v hv
        exact hd (List.cons.inj hv).1
    · rw [universalNewlines_cons hb, newline, if_neg hb]

theorem length_splitOn (a : Char) (t : List Char) : (t.splitOn a).length = t.count a + 1 := by
  induction t with
  | nil => rfl
  | cons b t ih =>
    rw [List.splitOn_cons_eq_if_modifyHead, List.count_cons]
    split
    · rw [List.length_cons, ih]
    · rw [List.length_modifyHead, ih, Nat.add_zero]

theorem sublist_of_mem_splitOn {a : Char} (h : x ∈ t.splitOn a) : x.Sublist t := by
  induction t generalizing x with
  | nil =>
    rw [List.splitOn_nil, List.mem_singleton] at h
    exact h ▸ List.Sublist.slnil
  | cons b t ih =>
    obtain ⟨first, rest, hsplit⟩ := List.exists_cons_of_ne_nil (List.splitOn_ne_nil a t)
    rw [List.splitOn_cons_eq_if_modifyHead] at h
    split at h
    · rcases List.mem_cons.mp h with rfl | h
      · exact List.nil_sublist _
      · exact (ih h).cons b
    · rw [hsplit, List.modifyHead_cons] at h
      rcases List.mem_cons.mp h with rfl | h
      · exact (ih (hsplit ▸ List.mem_cons_self)).cons_cons b
      · exact (ih (hsplit ▸ List.mem_cons_of_mem _ h)).cons b

end Text

theorem parseRecord_of_count {record : List Char} (h : record.count '\x00' ≠ 3) :
    parseRecord fromisoformat record = .ok none := by
  rw [parseRecord]
  split
  next heq =>
    have hlength := congrArg List.length heq
    rw [length_splitOn, count_strip (by decide)] at hlength
    exact absurd (Nat.succ.inj hlength) h
  next => rfl

theorem parseRecords_append {xs ys : List (List Char)} {as bs : List (Commit τ)}
    (hx : parseRecords fromisoformat xs = .ok as) (hy : parseRecords fromisoformat ys = .ok bs) :
    parseRecords fromisoformat (xs ++ ys) = .ok (as ++ bs) := by
  induction xs generalizing as with
  | nil =>
    cases hx
    exact hy
  | cons x xs ih =>
    simp only [parseRecords, List.cons_append] at hx ⊢
    cases hr : parseRecord fromisoformat x with
    | error e => simp [hr, bind, Except.bind] at hx
    | ok o =>
      cases hrs : parseRecords fromisoformat xs with
      | error e => simp [hr, hrs, bind, Except.bind] at hx
      | ok cs =>
        simp only [hr, hrs, bind, Except.bind, pure, Except.pure, Except.ok.injEq] at hx
        rw [ih hrs]
        simp [hx.symm, bind, Except.bind, pure, Except.pure]

theorem parseRecords_of_forall {xs : List (List Char)}
    (h : ∀ x ∈ xs, parseRecord fromisoformat x = .ok none) :
    parseRecords fromisoformat xs = .ok [] := by
  induction xs with
  | nil => rfl
  | cons x xs ih =>
    rw [parseRecords, h x List.mem_cons_self, ih fun y hy ↦ h y (List.mem_cons_of_mem _ hy)]
    rfl

/-! ## A printed commit -/

namespace PrintedCommit

variable (c : PrintedCommit fromisoformat)

/-- What is read of a commit: its subject ends where a record separator stands. -/
def commit : Commit τ where
  sha := c.hash
  authorName := String.ofList ((c.author.map newline).take 200)
  committedAt := c.committedAt
  subject := String.ofList (([' '].intercalate (words
    (((c.subject.map newline).takeWhile (· != '\x1e')).rdropWhile isSpace))).take 300)

theorem length_hash : c.hash.toList.length = 40 := by
  have h := c.hash_isCommitSha
  rw [isCommitSha, Bool.and_eq_true, beq_iff_eq] at h
  rw [String.length_toList, h.1]

/-- A character between the space and the delete character. -/
def IsPrint (b : Char) : Prop := 0x20 < b.toNat ∧ b.toNat < 0x7f

instance (b : Char) : Decidable (IsPrint b) := inferInstanceAs (Decidable (_ ∧ _))

theorem isPrint_of_isDigit {b : Char} (h : b.isDigit = true) : IsPrint b := by
  simp only [Char.isDigit, Bool.and_eq_true, decide_eq_true_eq, ge_iff_le, UInt32.le_iff_toNat_le] at h
  have hval : b.val.toNat = b.toNat := rfl
  rw [hval] at h
  exact ⟨lt_of_lt_of_le (by decide) h.1, lt_of_le_of_lt h.2 (by decide)⟩

theorem isPrint_of_mem_hash : ∀ b ∈ c.hash.toList, IsPrint b := by
  have h := c.hash_isCommitSha
  rw [isCommitSha, Bool.and_eq_true, List.all_eq_true] at h
  intro b hb
  have hb := h.2 b hb
  rw [Bool.or_eq_true] at hb
  rcases hb with hb | hb
  · exact isPrint_of_isDigit hb
  · simp only [Bool.and_eq_true, decide_eq_true_eq, Char.le_def, UInt32.le_iff_toNat_le] at hb
    have hval : b.val.toNat = b.toNat := rfl
    rw [hval] at hb
    exact ⟨lt_of_lt_of_le (by decide) hb.1, lt_of_le_of_lt hb.2 (by decide)⟩

theorem isPrint_of_mem_date : ∀ b ∈ c.date, IsPrint b := by
  intro b hb
  have hb := c.date_chars b hb
  rw [isDateChar, Bool.or_eq_true, decide_eq_true_eq] at hb
  rcases hb with hb | hb
  · exact isPrint_of_isDigit hb
  · simp only [List.mem_cons, List.not_mem_nil, or_false] at hb
    rcases hb with rfl | rfl | rfl | rfl | rfl <;> decide

theorem isSpace_of_isPrint {b : Char} (h : IsPrint b) : isSpace b = false := by
  rw [Bool.eq_false_iff]
  intro hb
  have hall : (spaces.all fun b ↦ !decide (IsPrint b)) = true := by decide
  have hb := List.all_eq_true.mp hall b (of_decide_eq_true hb)
  simp [h] at hb

theorem ne_of_isPrint {b d : Char} (h : IsPrint b) (hd : d.toNat ≤ 0x20) : b ≠ d := by
  rintro rfl
  exact absurd h.1 (not_lt.mpr hd)

theorem map_newline {t : List Char} (h : ∀ b ∈ t, IsPrint b) : t.map newline = t := by
  refine (List.map_congr_left fun b hb ↦ ?_).trans (List.map_id t)
  rw [newline, if_neg (ne_of_isPrint (h b hb) (by decide)), id]

/-- A text that is parsed as the record of a commit. -/
theorem parseRecord_joinRecord {lead author subject : List Char} (hlead : ∀ b ∈ lead, isSpace b = true)
    (hauthor : '\x00' ∉ author) (hsubject : '\x00' ∉ subject) :
    parseRecord fromisoformat (lead ++ joinRecord c.hash.toList author c.date subject)
      = .ok (some {
        sha := c.hash
        authorName := String.ofList (author.take 200)
        committedAt := c.committedAt
        subject := String.ofList
          (([' '].intercalate (words (subject.rdropWhile isSpace))).take 300) }) := by
  have hstrip : strip (lead ++ joinRecord c.hash.toList author c.date subject)
      = joinRecord c.hash.toList author c.date (subject.rdropWhile isSpace) := by
    obtain ⟨b, hash, hhash⟩ : ∃ b hash, c.hash.toList = b :: hash :=
      List.exists_cons_of_ne_nil (List.ne_nil_of_length_pos (c.length_hash ▸ by decide))
    have hb : isSpace b = false :=
      isSpace_of_isPrint (c.isPrint_of_mem_hash b (hhash ▸ List.mem_cons_self))
    rw [strip, List.dropWhile_append_of_pos hlead, hhash, joinRecord, List.cons_append,
      List.dropWhile_cons_of_neg (by simp [hb]), joinRecord]
    simp only [← List.append_assoc, ← List.cons_append]
    rw [rdropWhile_append_cons (by decide)]
  have hsplit : (joinRecord c.hash.toList author c.date (subject.rdropWhile isSpace)).splitOn '\x00'
      = [c.hash.toList, author, c.date, subject.rdropWhile isSpace] := by
    have hne {t : List Char} (h : ∀ b ∈ t, IsPrint b) : '\x00' ∉ t :=
      fun hmem ↦ ne_of_isPrint (h _ hmem) (by decide) rfl
    rw [joinRecord, List.splitOn_append_cons_self_of_not_mem (hne c.isPrint_of_mem_hash),
      List.splitOn_append_cons_self_of_not_mem hauthor,
      List.splitOn_append_cons_self_of_not_mem (hne c.isPrint_of_mem_date),
      List.splitOn_eq_singleton fun hmem ↦ hsubject ((List.rdropWhile_prefix _ _).subset hmem)]
  rw [parseRecord, hstrip, hsplit]
  simp only [c.length_hash, c.date_read]
  rw [String.ofList_toList]
  rfl

theorem notMem_of_isPrint {a : Char} {t : List Char} (h : ∀ b ∈ t, IsPrint b) (ha : a.toNat ≤ 0x20) :
    a ∉ t := fun hmem ↦ ne_of_isPrint (h a hmem) ha rfl

theorem notMem_map_newline {a : Char} {t : List Char} (ha : a ≠ '\n') (h : a ∉ t) :
    a ∉ t.map newline := by
  intro hmem
  obtain ⟨b, hb, hbn⟩ := List.mem_map.mp hmem
  rw [newline] at hbn
  split at hbn
  · exact ha hbn.symm
  · exact h (hbn ▸ hb)

variable {lead : List Char} (hlead : ∀ b ∈ lead, isSpace b = true)

include hlead

/-- With a record separator in the name of the author, no piece of a record has all of its null
characters. -/
theorem parseRecords_of_mem (hmem : '\x1e' ∈ c.author) :
    parseRecords fromisoformat ((lead ++ joinRecord c.hash.toList (c.author.map newline) c.date
      (c.subject.map newline)).splitOn '\x1e') = .ok [] := by
  have hhash := List.count_eq_zero.mpr (notMem_of_isPrint (a := '\x00') c.isPrint_of_mem_hash (by decide))
  have hdate := List.count_eq_zero.mpr (notMem_of_isPrint (a := '\x00') c.isPrint_of_mem_date (by decide))
  have hlead : lead.count '\x00' = 0 :=
    List.count_eq_zero.mpr fun hmem ↦ absurd (hlead _ hmem) (by decide)
  have hauthor := List.count_eq_zero.mpr (notMem_map_newline (by decide) c.author_text.1)
  have hsubject := List.count_eq_zero.mpr (notMem_map_newline (by decide) c.subject_text.1)
  have hmem : '\x1e' ∈ c.author.map newline := List.mem_map.mpr ⟨_, hmem, by decide⟩
  obtain ⟨x, y, hxy, -⟩ := List.eq_append_cons_of_mem hmem
  rw [hxy, List.count_append, List.count_cons] at hauthor
  have hbody : lead ++ joinRecord c.hash.toList (c.author.map newline) c.date (c.subject.map newline)
      = (lead ++ c.hash.toList ++ '\x00' :: x)
        ++ '\x1e' :: (y ++ '\x00' :: (c.date ++ '\x00' :: c.subject.map newline)) := by
    rw [joinRecord, hxy]
    simp
  refine parseRecords_of_forall fun piece hpiece ↦ parseRecord_of_count ?_
  rw [hbody, List.splitOn_append_cons_self, List.mem_append] at hpiece
  rcases hpiece with hpiece | hpiece
  · have hle := (sublist_of_mem_splitOn hpiece).count_le '\x00'
    simp only [List.count_append, List.count_cons, hhash, hlead, beq_self_eq_true, if_true] at hle
    omega
  · have hle := (sublist_of_mem_splitOn hpiece).count_le '\x00'
    simp only [List.count_append, List.count_cons, hdate, hsubject, beq_self_eq_true, if_true] at hle
    omega

/-- Without one, the first piece is the record of the commit, and the others have no null character. -/
theorem parseRecords_of_notMem (hsep : '\x1e' ∉ lead) (hmem : '\x1e' ∉ c.author) :
    parseRecords fromisoformat ((lead ++ joinRecord c.hash.toList (c.author.map newline) c.date
      (c.subject.map newline)).splitOn '\x1e') = .ok [c.commit] := by
  have hhead : '\x1e' ∉ lead ++ joinRecord c.hash.toList (c.author.map newline) c.date [] := by
    have hhash := notMem_of_isPrint (a := '\x1e') c.isPrint_of_mem_hash (by decide)
    have hdate := notMem_of_isPrint (a := '\x1e') c.isPrint_of_mem_date (by decide)
    have hauthor := notMem_map_newline (a := '\x1e') (by decide) hmem
    simp [joinRecord, hsep, hauthor, hhash, hdate]
  have hjoin (t : List Char) : lead ++ joinRecord c.hash.toList (c.author.map newline) c.date t
      = lead ++ joinRecord c.hash.toList (c.author.map newline) c.date [] ++ t := by
    simp [joinRecord]
  have hone {t : List Char} (ht : '\x00' ∉ t) :
      parseRecord fromisoformat
        (lead ++ joinRecord c.hash.toList (c.author.map newline) c.date t) = .ok (some _) :=
    c.parseRecord_joinRecord hlead (notMem_map_newline (by decide) c.author_text.1) ht
  have hnul := notMem_map_newline (a := '\x00') (by decide) c.subject_text.1
  rw [commit]
  by_cases hsubject : '\x1e' ∈ c.subject.map newline
  · obtain ⟨x, y, hxy, hx⟩ := List.eq_append_cons_of_mem hsubject
    rw [hxy, List.mem_append, List.mem_cons, not_or, not_or] at hnul
    have htake : (x ++ '\x1e' :: y).takeWhile (· != '\x1e') = x := by
      have hne : ∀ b ∈ x, (b != '\x1e') = true := by
        intro b hb
        rw [bne_iff_ne]
        rintro rfl
        exact hx hb
      rw [List.takeWhile_append_of_pos hne, List.takeWhile_cons_of_neg (by simp), List.append_nil]
    have hfirst : '\x1e' ∉ lead ++ joinRecord c.hash.toList (c.author.map newline) c.date [] ++ x := by
      rw [List.mem_append, not_or]
      exact ⟨hhead, hx⟩
    have hrest : parseRecords fromisoformat (y.splitOn '\x1e') = .ok [] := by
      refine parseRecords_of_forall fun piece hpiece ↦ parseRecord_of_count ?_
      have hle := (sublist_of_mem_splitOn hpiece).count_le '\x00'
      rw [List.count_eq_zero.mpr hnul.2.2] at hle
      omega
    rw [hxy, htake, hjoin, ← List.append_assoc, List.splitOn_append_cons_self_of_not_mem hfirst,
      ← hjoin, parseRecords, hone hnul.1, hrest]
    rfl
  · have htake : (c.subject.map newline).takeWhile (· != '\x1e') = c.subject.map newline := by
      rw [List.takeWhile_eq_self_iff]
      intro b hb
      rw [bne_iff_ne]
      rintro rfl
      exact hsubject hb
    have hall : '\x1e' ∉ lead ++ joinRecord c.hash.toList (c.author.map newline) c.date []
        ++ c.subject.map newline := by
      rw [List.mem_append, not_or]
      exact ⟨hhead, hsubject⟩
    rw [htake, hjoin, List.splitOn_eq_singleton hall, ← hjoin, parseRecords, hone hnul]
    rfl

end PrintedCommit

/-- The output as it is read. -/
theorem universalNewlines_printLog (commits : List (PrintedCommit fromisoformat)) :
    Text.universalNewlines (printLog commits) = commits.flatMap fun c ↦
      joinRecord c.hash.toList (c.author.map newline) c.date (c.subject.map newline)
        ++ ['\x1e', '\n'] := by
  induction commits with
  | nil => rfl
  | cons c commits ih =>
    have hno : '\n' ∉ joinRecord c.hash.toList c.author c.date c.subject := by
      have hhash := PrintedCommit.notMem_of_isPrint (a := '\n') c.isPrint_of_mem_hash (by decide)
      have hdate := PrintedCommit.notMem_of_isPrint (a := '\n') c.isPrint_of_mem_date (by decide)
      simp [joinRecord, hhash, hdate, c.author_text.2, c.subject_text.2]
    have hmap : (joinRecord c.hash.toList c.author c.date c.subject).map newline
        = joinRecord c.hash.toList (c.author.map newline) c.date (c.subject.map newline) := by
      simp only [joinRecord, List.map_append, List.map_cons]
      rw [PrintedCommit.map_newline c.isPrint_of_mem_hash,
        PrintedCommit.map_newline c.isPrint_of_mem_date]
      rfl
    rw [List.flatMap_cons, ← ih, ← hmap, printLog, List.flatMap_cons, List.append_assoc,
      List.cons_append, universalNewlines_append hno (by decide), List.append_assoc]
    rfl

/-- What is read of the recent commits. -/
theorem parseLog_printLog (commits : List (PrintedCommit fromisoformat)) :
    parseLog fromisoformat (Text.universalNewlines (printLog commits))
      = .ok ((commits.filter fun c ↦ decide ('\x1e' ∉ c.author)).map PrintedCommit.commit) := by
  rw [parseLog, universalNewlines_printLog]
  suffices h : ∀ lead : List Char, (∀ b ∈ lead, isSpace b = true) → '\x1e' ∉ lead →
      parseRecords fromisoformat ((lead ++ commits.flatMap fun c ↦
        joinRecord c.hash.toList (c.author.map newline) c.date (c.subject.map newline)
          ++ ['\x1e', '\n']).splitOn '\x1e')
        = .ok ((commits.filter fun c ↦ decide ('\x1e' ∉ c.author)).map PrintedCommit.commit) from
    h [] (by simp) (by simp)
  induction commits with
  | nil =>
    intro lead hlead hsep
    rw [List.flatMap_nil, List.append_nil, List.splitOn_eq_singleton hsep]
    refine parseRecords_of_forall fun piece hpiece ↦ parseRecord_of_count ?_
    rw [List.mem_singleton] at hpiece
    rw [hpiece, List.count_eq_zero.mpr fun hmem ↦ absurd (hlead _ hmem) (by decide)]
    decide
  | cons c commits ih =>
    intro lead hlead hsep
    have hrecord : parseRecords fromisoformat ((lead ++ joinRecord c.hash.toList
        (c.author.map newline) c.date (c.subject.map newline)).splitOn '\x1e')
        = .ok (if '\x1e' ∈ c.author then [] else [c.commit]) := by
      split
      next hmem => exact c.parseRecords_of_mem hlead hmem
      next hmem => exact c.parseRecords_of_notMem hlead hsep hmem
    rw [List.flatMap_cons, ← List.append_assoc, ← List.append_assoc, List.append_assoc _ ['\x1e', '\n'],
      List.cons_append, List.splitOn_append_cons_self,
      parseRecords_append hrecord (ih ['\n'] (List.all_eq_true.mp (by decide)) (by decide)), List.filter_cons]
    by_cases hmem : '\x1e' ∈ c.author <;> simp [hmem]

/-! ## The recent commits -/

/-- Every printed commit is read, in order and with its own hash; so a request for the head of the
main branch gets it, and every recent commit can be selected. -/
def ReadComplete (commits : List (PrintedCommit fromisoformat)) : Prop :=
  ∃ read, parseLog fromisoformat (Text.universalNewlines (printLog commits)) = .ok read
    ∧ read.map Commit.sha = commits.map PrintedCommit.hash
    ∧ (∀ c rest, commits = c :: rest →
      DeploymentService.resolveCommit { type := .mainHead } (read.map Commit.sha) = pure c.hash)
    ∧ ∀ c ∈ commits, DeploymentService.resolveCommit { type := .mainCommit, commitSha := some c.hash }
      (read.map Commit.sha) = pure c.hash

theorem resolveCommit_mem {shas : List String} {sha : String} (h : sha ∈ shas) :
    DeploymentService.resolveCommit { type := .mainCommit, commitSha := some sha } shas = pure sha := by
  cases shas with
  | nil => exact absurd h List.not_mem_nil
  | cons head shas =>
    simp only [DeploymentService.resolveCommit, Option.some.injEq]
    cases hfind : (head :: shas).find? fun s ↦ decide (s = sha) with
    | none => exact absurd (decide_eq_true rfl) (List.find?_eq_none.mp hfind sha h)
    | some found =>
      have hfound := List.find?_some hfind
      rw [of_decide_eq_true hfound]

/-- **The recent commits are read in full** unless an author put a record separator in a name. -/
theorem parseLog_complete_iff (commits : List (PrintedCommit fromisoformat)) :
    ReadComplete commits ↔ ∀ c ∈ commits, '\x1e' ∉ c.author := by
  constructor
  · rintro ⟨read, hread, hshas, -⟩
    obtain rfl := Except.ok.inj (hread.symm.trans (parseLog_printLog commits))
    have hlength := congrArg List.length hshas
    simp only [List.length_map] at hlength
    have hall := List.length_filter_eq_length_iff.mp hlength
    exact fun c hc ↦ of_decide_eq_true (hall c hc)
  · intro h
    have hfilter : commits.filter (fun c ↦ decide ('\x1e' ∉ c.author)) = commits :=
      List.filter_eq_self.mpr fun c hc ↦ decide_eq_true (h c hc)
    have hshas : (commits.map PrintedCommit.commit).map Commit.sha = commits.map PrintedCommit.hash := by
      rw [List.map_map]
      rfl
    refine ⟨commits.map PrintedCommit.commit, ?_, hshas, ?_, ?_⟩
    · rw [parseLog_printLog, hfilter]
    · rintro c rest rfl
      rfl
    · intro c hc
      rw [hshas]
      exact resolveCommit_mem (List.mem_map_of_mem hc)

def samplePrinted (sha : String) (author : List Char) (hsha : isCommitSha sha = true)
    (hauthor : '\x00' ∉ author ∧ '\n' ∉ author) : PrintedCommit fun _ ↦ .ok () where
  hash := sha
  author := author
  date := "2026-08-07T01:00:00Z".toList
  subject := "change".toList
  committedAt := ()
  hash_isCommitSha := hsha
  author_text := hauthor
  subject_text := by decide
  date_chars := List.all_eq_true.mp (by decide)
  date_read := rfl

/-- The head is lost: its author has a record separator in the name. -/
theorem not_readComplete_sample : ¬ReadComplete
    [samplePrinted "00000000000000000000000000000000000000aa" ['a', '\x1e', 'b'] (by decide) (by decide),
      samplePrinted "00000000000000000000000000000000000000bb" ['c'] (by decide) (by decide)] := by
  rintro ⟨read, hread, hshas, -⟩
  obtain rfl := Except.ok.inj (hread.symm.trans (parseLog_printLog _))
  exact absurd (congrArg List.length hshas) (by decide)

end Heimdall
