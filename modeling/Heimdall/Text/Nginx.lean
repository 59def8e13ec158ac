import Mathlib

/-!
# The syntax of nginx configurations

A configuration is a list of directives; a directive has a name, arguments and either ends with a
semicolon or has a block of directives. `read` reads a text that has no escapes and no single
quotes. It is made of two machines that work from left to right, one on characters (`lex`) and one
on tokens (`parse`), so that what they do on a text is put together from what they do on its parts
(`lex_append`, `lex_lines`, `parse_append`).
-/

namespace Nginx

/-! ## Characters -/

inductive Token where
  | word (s : String)
  | semicolon
  | opening
  | closing
deriving DecidableEq

/-- What has been read since the last token. -/
inductive LexState where
  | blank
  | word (cs : List Char)
  | quoted (cs : List Char)
  | comment
deriving DecidableEq

def isBlank (c : Char) : Bool := c == ' ' || c == '\n' || c == '\t' || c == '\r'

/-- The characters that mean something besides themselves. -/
def specials : List Char := [' ', '\n', '\t', '\r', ';', '\x7b', '\x7d', '#', '"']

/-- A character that is part of a word wherever it stands. -/
def isPlain (c : Char) : Bool := !specials.contains c

theorem isPlain_of (p : Char → Bool) (hp : specials.any p = false) {c : Char}
    (hc : p c = true) : isPlain c = true := by
  rw [isPlain, Bool.not_eq_true', List.contains_eq_mem, decide_eq_false_iff_not]
  intro hmem
  exact absurd (List.any_eq_true.mpr ⟨c, hmem, hc⟩) (by simp [hp])

def LexState.step : LexState → Char → List Token × LexState
  | .blank, c =>
    if isBlank c then ([], .blank)
    else if c = ';' then ([.semicolon], .blank)
    else if c = '\x7b' then ([.opening], .blank)
    else if c = '\x7d' then ([.closing], .blank)
    else if c = '#' then ([], .comment)
    else if c = '"' then ([], .quoted [])
    else ([], .word [c])
  | .word cs, c =>
    if isBlank c then ([.word (String.ofList cs)], .blank)
    else if c = ';' then ([.word (String.ofList cs), .semicolon], .blank)
    else if c = '\x7b' then ([.word (String.ofList cs), .opening], .blank)
    else ([], .word (cs ++ [c]))
  | .quoted cs, c =>
    if c = '"' then ([.word (String.ofList cs)], .blank) else ([], .quoted (cs ++ [c]))
  | .comment, c => if c = '\n' then ([], .blank) else ([], .comment)

def lex : LexState → List Char → List Token × LexState
  | q, [] => ([], q)
  | q, c :: cs => ((q.step c).1 ++ (lex (q.step c).2 cs).1, (lex (q.step c).2 cs).2)

theorem lex_append (q : LexState) (x y : List Char) :
    lex q (x ++ y) = ((lex q x).1 ++ (lex (lex q x).2 y).1, (lex (lex q x).2 y).2) := by
  induction x generalizing q with
  | nil => rfl
  | cons c x ih => rw [List.cons_append, lex, ih, lex, List.append_assoc]

/-- What plain characters add. -/
def LexState.extend : LexState → List Char → LexState
  | .blank, w => .word w
  | .word cs, w => .word (cs ++ w)
  | .quoted cs, w => .quoted (cs ++ w)
  | .comment, _ => .comment

theorem step_plain {c : Char} (h : isPlain c = true) (q : LexState) :
    q.step c = ([], q.extend [c]) := by
  simp only [isPlain, specials, List.contains_eq_mem, List.mem_cons, List.not_mem_nil, or_false,
    Bool.not_eq_true', decide_eq_false_iff_not, not_or] at h
  obtain ⟨hspace, hline, htab, hreturn, hsemi, hopen, hclose, hhash, hquote⟩ := h
  have hblank : isBlank c = false := by simp [isBlank, hspace, hline, htab, hreturn]
  cases q <;> simp [LexState.step, LexState.extend, hblank, hsemi, hopen, hclose, hhash, hquote, hline]

theorem extend_append (q : LexState) (w w' : List Char) :
    (q.extend w).extend w' = q.extend (w ++ w') := by
  cases q <;> simp [LexState.extend]

theorem lex_plain {w : List Char} (hw : ∀ c ∈ w, isPlain c = true) (hne : w ≠ [])
    (q : LexState) : lex q w = ([], q.extend w) := by
  induction w generalizing q with
  | nil => exact absurd rfl hne
  | cons c w ih =>
    obtain ⟨hc, hw⟩ := List.forall_mem_cons.mp hw
    rw [lex, step_plain hc]
    cases w with
    | nil => rfl
    | cons c' w =>
      rw [ih hw (by simp), extend_append]
      rfl

/-- Plain characters between two parts of a text. -/
theorem lex_around {pre w post : List Char} {q q₁ q₂ : LexState} {ts₁ ts₂ : List Token}
    (hpre : lex q pre = (ts₁, q₁)) (hw : ∀ c ∈ w, isPlain c = true) (hne : w ≠ [])
    (hpost : lex (q₁.extend w) post = (ts₂, q₂)) :
    lex q (pre ++ (w ++ post)) = (ts₁ ++ ts₂, q₂) := by
  rw [lex_append, hpre, lex_append, lex_plain hw hne, hpost]
  rfl

/-- A text that is read as one word. -/
def IsWord (w : String) : Prop := w.toList ≠ [] ∧ ∀ c ∈ w.toList, isPlain c = true

instance (w : String) : Decidable (IsWord w) :=
  decidable_of_iff (w.toList ≠ [] ∧ w.toList.all isPlain = true) (by rw [List.all_eq_true, IsWord])

theorem IsWord.append {w w' : String} (h : IsWord w) (h' : IsWord w') : IsWord (w ++ w') := by
  rw [IsWord, String.toList_append]
  exact ⟨List.append_ne_nil_of_left_ne_nil h.1 _, List.forall_mem_append.mpr ⟨h.2, h'.2⟩⟩

/-- A word in a line. -/
theorem lex_line (ts ts' : List Token) {pre w post : String} (hw : IsWord w)
    (hpre : lex .blank pre.toList = (ts, .blank))
    (hpost : ∀ cs, lex (.word cs) post.toList = (.word (String.ofList cs) :: ts', .blank)) :
    lex .blank (pre ++ w ++ post).toList = (ts ++ .word w :: ts', .blank) := by
  have hpost' := hpost w.toList
  rw [String.ofList_toList] at hpost'
  rw [String.toList_append, String.toList_append, List.append_assoc]
  exact lex_around hpre hw.2 hw.1 hpost'

/-- Lines that leave nothing unfinished. -/
theorem lex_lines {lines : List String} {tss : List (List Token)}
    (h : List.Forall₂ (fun line ts ↦ lex .blank line.toList = (ts, .blank)) lines tss) :
    lex .blank ("\n".intercalate lines).toList = (tss.flatten, .blank) := by
  rw [String.toList_intercalate]
  induction h with
  | nil => rfl
  | @cons line ts lines tss hline hlines ih =>
    cases lines with
    | nil =>
      cases hlines
      simpa using hline
    | cons line' lines =>
      rw [List.map_cons, List.map_cons, List.intercalate_cons_cons, ← List.map_cons,
        List.append_assoc, lex_append, hline, lex_append]
      have hbreak : lex .blank "\n".toList = ([], .blank) := by decide
      rw [hbreak, ih]
      rfl

/-! ## Tokens -/

inductive Directive where
  | simple (name : String) (args : List String)
  | block (name : String) (args : List String) (body : List Directive)

mutual

def Directive.tokens : Directive → List Token
  | .simple name args => .word name :: (args.map .word ++ [.semicolon])
  | .block name args body => .word name :: (args.map .word ++ .opening :: (tokens body ++ [.closing]))

def tokens : List Directive → List Token
  | [] => []
  | d :: ds => d.tokens ++ tokens ds

end

/-- The words since the last directive, the directives read so far in the block that is open, and
the blocks around it. -/
structure ParseState where
  words : List String := []
  done : List Directive := []
  stack : List (String × List String × List Directive) := []

def ParseState.step (s : ParseState) : Token → Option ParseState
  | .word w => some { s with words := s.words ++ [w] }
  | .semicolon =>
    match s.words with
    | name :: args => some { s with words := [], done := s.done ++ [.simple name args] }
    | [] => none
  | .opening =>
    match s.words with
    | name :: args => some { words := [], done := [], stack := (name, args, s.done) :: s.stack }
    | [] => none
  | .closing =>
    match s.words, s.stack with
    | [], (name, args, outer) :: stack =>
      some { words := [], done := outer ++ [.block name args s.done], stack := stack }
    | _, _ => none

def parse (s : ParseState) (ts : List Token) : Option ParseState := ts.foldlM ParseState.step s

theorem parse_append (s : ParseState) (ts ts' : List Token) :
    parse s (ts ++ ts') = (parse s ts).bind (parse · ts') := List.foldlM_append

theorem parse_words (s : ParseState) (ws : List String) :
    parse s (ws.map .word) = some { s with words := s.words ++ ws } := by
  induction ws generalizing s with
  | nil => simp [parse]
  | cons w ws ih =>
    have hstep : parse s ((w :: ws).map .word)
        = parse { s with words := s.words ++ [w] } (ws.map .word) := rfl
    rw [hstep, ih, List.append_assoc]
    rfl

mutual

/-- The tokens of a directive are read as that directive. -/
theorem parse_directive (d : Directive) (done : List Directive)
    (stack : List (String × List String × List Directive)) :
    parse ⟨[], done, stack⟩ d.tokens = some ⟨[], done ++ [d], stack⟩ := by
  match d with
  | .simple name args =>
    rw [Directive.tokens, ← List.cons_append, ← List.map_cons (f := Token.word), parse_append,
      parse_words]
    rfl
  | .block name args body =>
    rw [Directive.tokens, ← List.cons_append, ← List.map_cons (f := Token.word), parse_append,
      parse_words, Option.bind_some]
    have hopen : parse ⟨[] ++ name :: args, done, stack⟩ (.opening :: (tokens body ++ [.closing]))
        = parse ⟨[], [], (name, args, done) :: stack⟩ (tokens body ++ [.closing]) := rfl
    rw [hopen, parse_append, parse_directives body [] _]
    rfl

theorem parse_directives (ds done : List Directive)
    (stack : List (String × List String × List Directive)) :
    parse ⟨[], done, stack⟩ (tokens ds) = some ⟨[], done ++ ds, stack⟩ := by
  match ds with
  | [] => simp [tokens, parse]
  | d :: ds =>
    rw [tokens, parse_append, parse_directive d done stack, Option.bind_some,
      parse_directives ds (done ++ [d]) stack, List.append_assoc, List.singleton_append]

end

/-! ## Parts of a configuration -/

/-- The arguments and the bodies of the blocks with a name. -/
def blocks (name : String) (ds : List Directive) : List (List String × List Directive) :=
  ds.filterMap fun
    | .block n args body => if n = name then some (args, body) else none
    | .simple _ _ => none

/-- The arguments of the simple directives with a name. -/
def settings (name : String) (ds : List Directive) : List (List String) :=
  ds.filterMap fun
    | .simple n args => if n = name then some args else none
    | .block _ _ _ => none

/-! ## Texts -/

/-- The directives of a text. -/
def read (text : String) : Option (List Directive) :=
  match lex .blank text.toList with
  | (ts, .blank) =>
    match parse {} ts with
    | some ⟨[], done, []⟩ => some done
    | _ => none
  | _ => none

theorem read_of_lex {text : String} {ds : List Directive}
    (h : lex .blank text.toList = (tokens ds, .blank)) : read text = some ds := by
  have hparse : parse {} (tokens ds) = some ⟨[], [] ++ ds, []⟩ := parse_directives ds [] []
  rw [read, h]
  simp only [hparse, List.nil_append]

theorem tokens_append (ds ds' : List Directive) : tokens (ds ++ ds') = tokens ds ++ tokens ds' := by
  induction ds with
  | nil => rfl
  | cons d ds ih => rw [List.cons_append, tokens, tokens, ih, List.append_assoc]

theorem tokens_flatMap {α : Type} (f : α → List Directive) (xs : List α) :
    tokens (xs.flatMap f) = (xs.map fun x ↦ tokens (f x)).flatten := by
  induction xs with
  | nil => rfl
  | cons x xs ih => rw [List.flatMap_cons, tokens_append, ih, List.map_cons, List.flatten_cons]

end Nginx
