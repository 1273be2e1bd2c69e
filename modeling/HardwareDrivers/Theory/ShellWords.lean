import HardwareDrivers.Theory.Faults

/-!
# The words of a shell command

How the POSIX shell takes a text apart into tokens: quoting, blanks, operators and comments. The
characters of a word are kept together with whether they were quoted, for what is done to a word
later: the shell puts the names of files in the place of an unquoted pattern, and a home directory in
the place of an unquoted tilde.

A text is read up to the first character that begins a parameter expansion or a command substitution:
what such a text comes to depends on the environment. An operator of two characters is two tokens
here.

## What is proved

* `lex_words` — words of ordinary characters, a blank behind each, are taken apart into themselves.
* `commandWords_words` — so are words that no environment changes, as the words of a command.
* `Read.of_foldlM` — what the end of a text can be read as, by its length.
* `fixedWord_of_commandWords` — if the last word of a text is as long as the end of the text, it is that
  end, which stands for itself.
-/

namespace HardwareDrivers.Theory.Shell

/-! ### Characters -/

/-- A reverse solidus. -/
def backslash : Char := .ofNat 92

/-- A single-quote. -/
def singleQuote : Char := .ofNat 39

/-- A double-quote. -/
def doubleQuote : Char := .ofNat 34

/-- A grave accent. -/
def backquote : Char := .ofNat 96

/-- A blank. -/
def isBlank (c : Char) : Bool := c = ' ' || c = '\t'

/-- A character of an operator, or a newline. -/
def isOperator (c : Char) : Bool :=
  c = '&' || c = '|' || c = ';' || c = '<' || c = '>' || c = '(' || c = ')' || c = '\n'

/-- A character that quotes. -/
def isQuote (c : Char) : Bool := c = backslash || c = singleQuote || c = doubleQuote

/-- A character that begins an expansion. -/
def isExpansion (c : Char) : Bool := c = '$' || c = backquote

/-- A character that stands for itself inside a word. -/
def isOrdinary (c : Char) : Bool := !isBlank c && !isOperator c && !isQuote c && !isExpansion c

/-! ### Tokens -/

/-- A character of a word. -/
inductive Piece where
  /-- It was not quoted. -/
  | plain (c : Char)
  /-- It was quoted. -/
  | quoted (c : Char)
  deriving DecidableEq

/-- The character. -/
def Piece.char : Piece → Char
  | plain c | quoted c => c

/-- A token. -/
inductive Token where
  /-- A word. -/
  | word (pieces : List Piece)
  /-- A character of an operator, or a newline. -/
  | operator (c : Char)
  deriving DecidableEq

/-- What the next character is read in. -/
inductive Quoting where
  /-- Nothing. -/
  | none
  /-- Behind a backslash. -/
  | backslash
  /-- Single-quotes. -/
  | single
  /-- Double-quotes. -/
  | double
  /-- Behind a backslash in double-quotes. -/
  | doubleBackslash
  /-- A comment. -/
  | comment
  deriving DecidableEq

/-- What was read. -/
structure LexState where
  /-- The tokens, the last one first. -/
  tokens : List Token
  /-- The word that has begun, its last character first. -/
  word : Option (List Piece)
  /-- What the next character is read in. -/
  quoting : Quoting
  deriving DecidableEq

/-- Why a text is not read to its end. -/
inductive LexError where
  /-- An expansion begins. -/
  | expansion
  /-- A quote is not closed. -/
  | unclosed
  deriving DecidableEq

namespace LexState

/-- Before the first character. -/
def start : LexState := ⟨[], none, .none⟩

/-- The word that has begun ends. -/
def close (s : LexState) : LexState :=
  match s.word with
  | none => s
  | some w => { s with tokens := .word w.reverse :: s.tokens, word := none }

/-- A word begins, if none has. -/
def begin (s : LexState) : LexState := { s with word := some (s.word.getD []) }

/-- A character is added to the word. -/
def push (s : LexState) (p : Piece) : LexState := { s with word := some (p :: s.word.getD []) }

/-- What is read next is read in something else. -/
def enter (s : LexState) (quoting : Quoting) : LexState := { s with quoting }

/-- A token is added. -/
def add (s : LexState) (t : Token) : LexState := { s with tokens := t :: s.tokens }

end LexState

/-- A character is read. -/
def lexChar (s : LexState) (c : Char) : Except LexError LexState :=
  match s.quoting with
  | .none =>
    if isBlank c then .ok s.close
    else if isOperator c then .ok (s.close.add (.operator c))
    else if c = '#' && s.word.isNone then .ok (s.enter .comment)
    else if isExpansion c then .error .expansion
    else if c = backslash then .ok (s.enter .backslash)
    else if c = singleQuote then .ok (s.begin.enter .single)
    else if c = doubleQuote then .ok (s.begin.enter .double)
    else .ok (s.push (.plain c))
  | .backslash =>
    -- with a newline it is taken away
    if c = '\n' then .ok (s.enter .none) else .ok ((s.push (.quoted c)).enter .none)
  | .single =>
    if c = singleQuote then .ok (s.enter .none) else .ok (s.push (.quoted c))
  | .double =>
    if c = doubleQuote then .ok (s.enter .none)
    else if isExpansion c then .error .expansion
    else if c = backslash then .ok (s.enter .doubleBackslash)
    else .ok (s.push (.quoted c))
  | .doubleBackslash =>
    if c = '\n' then .ok (s.enter .double)
    else if c = doubleQuote || c = backslash || isExpansion c then
      .ok ((s.push (.quoted c)).enter .double)
    else .ok (((s.push (.quoted backslash)).push (.quoted c)).enter .double)
  | .comment =>
    if c = '\n' then .ok ((s.add (.operator c)).enter .none) else .ok s

/-- At the end of the text. -/
def LexState.finish (s : LexState) : Except LexError (List Token) :=
  match s.quoting with
  | .none | .comment => .ok s.close.tokens.reverse
  | _ => .error .unclosed

/-- The tokens of a text. -/
def lex (text : List Char) : Except LexError (List Token) :=
  text.foldlM lexChar .start >>= LexState.finish

/-! ### Commands -/

/-- A bracket with these characters behind it is a bracket expression: there is one that closes it
behind the first character inside, and no slash before that. -/
def opensBracket (rest : List Piece) : Bool :=
  match rest.takeWhile (·.char ≠ '/') with
  | .plain '!' :: _ :: inside => inside.contains (.plain ']')
  | _ :: inside => inside.contains (.plain ']')
  | [] => false

/-- The word is a pattern. -/
def isPattern : List Piece → Bool
  | [] => false
  | p :: ps =>
    p = .plain '*' || p = .plain '?' || (p = .plain '[' && opensBracket ps) || isPattern ps

/-- The word begins with a tilde. -/
def hasTilde (w : List Piece) : Bool := w.head? = some (.plain '~')

/-- What a program gets for a token that is a word, if that does not depend on the environment. -/
def Token.fixed : Token → Option (List Char)
  | .word w => if isPattern w || hasTilde w then none else some (w.map Piece.char)
  | .operator _ => none

/-- The words of a text that consists of words only, if none depends on the environment. Unless the
first one is an assignment or a reserved word, the text is one simple command, without redirection:
the first word is its name, the others are what the program gets. -/
def commandWords (text : List Char) : Option (List (List Char)) :=
  match lex text with
  | .ok tokens => tokens.mapM Token.fixed
  | .error _ => none

/-! ### Reading ordinary characters -/

/-- A word that stands for itself, but for patterns and tildes. -/
structure PlainWord (w : List Char) : Prop where
  /-- It is not empty. -/
  ne_nil : w ≠ []
  /-- Its characters are ordinary. -/
  ordinary : ∀ c ∈ w, isOrdinary c
  /-- It is not a comment. -/
  head : w.head? ≠ some '#'

instance (w : List Char) : Decidable (PlainWord w) :=
  decidable_of_iff (w ≠ [] ∧ w.all isOrdinary ∧ w.head? ≠ some '#')
    ⟨fun ⟨h₁, h₂, h₃⟩ => ⟨h₁, List.all_eq_true.1 h₂, h₃⟩,
      fun ⟨h₁, h₂, h₃⟩ => ⟨h₁, List.all_eq_true.2 h₂, h₃⟩⟩

variable {s t : LexState} {ts : List Token} {c : Char} {cs w : List Char}

theorem lexChar_ordinary (hs : s.quoting = .none) (hc : isOrdinary c)
    (hword : c ≠ '#' ∨ s.word.isSome) : lexChar s c = .ok (s.push (.plain c)) := by
  have hcomment : (c = '#' && s.word.isNone) = false := by
    rcases hword with hne | hsome
    · simp [hne]
    · simp [Option.isNone_eq_false_iff.mpr hsome]
  simp only [isOrdinary, isQuote, Bool.and_eq_true, Bool.not_eq_true', Bool.or_eq_false_iff,
    decide_eq_false_iff_not] at hc
  obtain ⟨⟨⟨hblank, hoperator⟩, ⟨hback, hsingle⟩, hdouble⟩, hexp⟩ := hc
  unfold lexChar
  rw [hs]
  simp only [hblank, hoperator, hcomment, hexp, hback, hsingle, hdouble, if_false, Bool.false_eq_true]

/-- Ordinary characters are added to the word that has begun. -/
theorem foldlM_ordinary (hcs : ∀ c ∈ cs, isOrdinary c) (w : List Piece) :
    cs.foldlM lexChar ⟨ts, some w, .none⟩ = .ok ⟨ts, some ((cs.map .plain).reverse ++ w), .none⟩ := by
  induction cs generalizing w with
  | nil => rfl
  | cons c cs ih =>
    obtain ⟨hc, hcs⟩ := List.forall_mem_cons.mp hcs
    rw [List.foldlM_cons, lexChar_ordinary rfl hc (.inr rfl), ok_bind]
    refine (ih hcs (.plain c :: w)).trans ?_
    rw [List.map_cons, List.reverse_cons, List.append_assoc]
    rfl

/-- A word is read. -/
theorem foldlM_plainWord (h : PlainWord w) :
    w.foldlM lexChar ⟨ts, none, .none⟩ = .ok ⟨ts, some (w.map .plain).reverse, .none⟩ := by
  obtain ⟨hne, hordinary, hhead⟩ := h
  cases w with
  | nil => exact absurd rfl hne
  | cons c cs =>
    obtain ⟨hc, hcs⟩ := List.forall_mem_cons.mp hordinary
    have hne : c ≠ '#' := fun heq => hhead (congrArg some heq)
    rw [List.foldlM_cons, lexChar_ordinary rfl hc (.inl hne), ok_bind]
    refine (foldlM_ordinary hcs [.plain c]).trans ?_
    rw [List.map_cons, List.reverse_cons]

/-- **Words, a blank behind each**, are taken apart into themselves. -/
theorem lex_words {ws : List (List Char)} (h : ∀ w ∈ ws, PlainWord w) (ts : List Token) :
    (ws.flatMap (· ++ [' '])).foldlM lexChar ⟨ts, none, .none⟩ =
      .ok ⟨(ws.map fun w => .word (w.map .plain)).reverse ++ ts, none, .none⟩ := by
  induction ws generalizing ts with
  | nil => rfl
  | cons w ws ih =>
    obtain ⟨hw, hws⟩ := List.forall_mem_cons.mp h
    have hblank : lexChar ⟨ts, some (w.map .plain).reverse, .none⟩ ' ' =
        .ok ⟨.word (w.map .plain) :: ts, none, .none⟩ := by
      unfold lexChar
      rw [if_pos (by rfl)]
      simp [LexState.close]
    rw [List.flatMap_cons, List.append_assoc, List.foldlM_append, foldlM_plainWord hw, ok_bind,
      List.singleton_append, List.foldlM_cons, hblank, ok_bind, ih hws, List.map_cons,
      List.reverse_cons, List.append_assoc]
    rfl

/-! ### What a text can be read as -/

namespace LexState

/-- How many characters the word has that has begun. -/
def pieces (s : LexState) : ℕ := (s.word.getD []).length

@[simp] theorem pieces_close (s : LexState) : s.close.pieces = 0 := by
  unfold close
  split
  · next h => simp [pieces, h]
  · rfl

@[simp] theorem pieces_add (s : LexState) (t : Token) : (s.add t).pieces = s.pieces := rfl

@[simp] theorem pieces_begin (s : LexState) : s.begin.pieces = s.pieces := rfl

@[simp] theorem pieces_push (s : LexState) (p : Piece) : (s.push p).pieces = s.pieces + 1 := rfl

@[simp] theorem pieces_enter (s : LexState) (q : Quoting) : (s.enter q).pieces = s.pieces := rfl

@[simp] theorem tokens_begin (s : LexState) : s.begin.tokens = s.tokens := rfl

@[simp] theorem tokens_push (s : LexState) (p : Piece) : (s.push p).tokens = s.tokens := rfl

@[simp] theorem tokens_enter (s : LexState) (q : Quoting) : (s.enter q).tokens = s.tokens := rfl

@[simp] theorem quoting_close (s : LexState) : s.close.quoting = s.quoting := by
  unfold close
  split <;> rfl

@[simp] theorem quoting_add (s : LexState) (t : Token) : (s.add t).quoting = s.quoting := rfl

@[simp] theorem quoting_push (s : LexState) (p : Piece) : (s.push p).quoting = s.quoting := rfl

@[simp] theorem quoting_enter (s : LexState) (q : Quoting) : (s.enter q).quoting = q := rfl

end LexState

/-- The characters that were read since something began and that are in no word. -/
def Quoting.length : Quoting → ℕ
  | none | comment => 0
  | backslash | single | double => 1
  | doubleBackslash => 2

/-- These words are shorter than that. -/
def Shorter (n : ℕ) (tokens : List Token) : Prop := ∀ w, .word w ∈ tokens → w.length < n

/-- The characters `cs`, read behind the tokens `ts`, led to `s`. -/
structure Read (ts : List Token) (cs : List Char) (s : LexState) : Prop where
  /-- No character is in a word twice. -/
  bound : s.pieces + s.quoting.length ≤ cs.length
  /-- If all are in one word, they are ordinary. -/
  full : s.pieces = cs.length → s.tokens = ts ∧ s.quoting = .none ∧
    (cs = [] ∧ s.word = none ∨ PlainWord cs ∧ s.word = some (cs.map .plain).reverse)
  /-- A word that has ended is shorter. -/
  ended : ∃ new, s.tokens = new ++ ts ∧ Shorter cs.length new

theorem Read.nil : Read ts [] ⟨ts, none, .none⟩ :=
  ⟨Nat.le_refl _, fun _ => ⟨rfl, rfl, .inl ⟨rfl, rfl⟩⟩, [], rfl, fun _ h => absurd h List.not_mem_nil⟩

namespace Read

/-- The words before are shorter than what is read now. -/
theorem ended_succ (h : Read ts cs s) (c : Char) :
    ∃ new, s.tokens = new ++ ts ∧ Shorter (cs ++ [c]).length new := by
  obtain ⟨new, htokens, hshort⟩ := h.ended
  refine ⟨new, htokens, fun w hw => ?_⟩
  have hlt := hshort w hw
  rw [List.length_append]
  omega

/-- So is the word that ends now. -/
theorem ended_close (h : Read ts cs s) (c : Char) :
    ∃ new, s.close.tokens = new ++ ts ∧ Shorter (cs ++ [c]).length new := by
  have hbound := h.bound
  unfold LexState.close
  split
  · exact h.ended_succ c
  · next w hw =>
    obtain ⟨new, htokens, hshort⟩ := h.ended_succ c
    refine ⟨.word w.reverse :: new, congrArg _ htokens, fun v hv => ?_⟩
    rcases List.mem_cons.mp hv with heq | hv
    · rw [LexState.pieces, hw, Option.getD_some] at hbound
      rw [Token.word.inj heq, List.length_reverse, List.length_append, List.length_singleton]
      omega
    · exact hshort v hv

/-- An operator is no word. -/
theorem ended_add {n : ℕ} {tokens : List Token} {o : Char}
    (h : ∃ new, tokens = new ++ ts ∧ Shorter n new) :
    ∃ new, .operator o :: tokens = new ++ ts ∧ Shorter n new := by
  obtain ⟨new, htokens, hshort⟩ := h
  refine ⟨.operator o :: new, congrArg _ htokens, fun w hw => ?_⟩
  rcases List.mem_cons.mp hw with heq | hw
  · cases heq
  · exact hshort w hw

/-- Not all characters are in one word. -/
theorem of_lt (hbound : t.pieces + t.quoting.length ≤ cs.length + 1) (hlt : t.pieces < cs.length + 1)
    (hended : ∃ new, t.tokens = new ++ ts ∧ Shorter (cs ++ [c]).length new) :
    Read ts (cs ++ [c]) t := by
  have hlen : (cs ++ [c]).length = cs.length + 1 := List.length_append
  rw [← hlen] at hbound hlt
  exact ⟨hbound, fun hfull => absurd hfull (Nat.ne_of_lt hlt), hended⟩

/-- No token is added, and no character to a word but those that were outside of it. -/
theorem kept (h : Read ts cs s) (htokens : t.tokens = s.tokens)
    (hbound : t.pieces + t.quoting.length ≤ s.pieces + s.quoting.length + 1)
    (hpieces : t.pieces ≤ s.pieces + s.quoting.length) : Read ts (cs ++ [c]) t :=
  of_lt (hbound.trans (Nat.succ_le_succ h.bound)) (Nat.lt_succ_of_le (hpieces.trans h.bound))
    (htokens ▸ h.ended_succ c)

/-- An ordinary character. -/
theorem push (h : Read ts cs s) (hs : s.quoting = .none) (hc : isOrdinary c)
    (hword : c ≠ '#' ∨ s.word.isSome) : Read ts (cs ++ [c]) (s.push (.plain c)) := by
  have hbound := h.bound
  rw [hs] at hbound
  refine ⟨?_, fun hfull => ?_, h.ended_succ c⟩
  · rw [List.length_append, LexState.pieces_push, LexState.quoting_push, hs]
    exact Nat.succ_le_succ hbound
  · rw [LexState.pieces_push, List.length_append, List.length_singleton] at hfull
    obtain ⟨htokens, -, hplain⟩ := h.full (Nat.succ.inj hfull)
    refine ⟨htokens, hs, .inr ?_⟩
    rcases hplain with ⟨rfl, hnone⟩ | ⟨⟨hne, hordinary, hhead⟩, hsome⟩
    · have hne : c ≠ '#' := hword.resolve_right (by simp [hnone])
      refine ⟨⟨by simp, by simpa using hc, by simpa using hne⟩, ?_⟩
      simp [LexState.push, hnone]
    · refine ⟨⟨by simp, fun d hd => ?_, ?_⟩, ?_⟩
      · rcases List.mem_append.mp hd with hd | hd
        · exact hordinary d hd
        · rwa [List.mem_singleton.mp hd]
      · rwa [List.head?_append_of_ne_nil _ hne]
      · simp [LexState.push, hsome]

/-- **A character is read.** -/
theorem lexChar (h : Read ts cs s) (ht : lexChar s c = .ok t) : Read ts (cs ++ [c]) t := by
  have hbound := h.bound
  unfold Shell.lexChar at ht
  cases hs : s.quoting with
  | none =>
    simp only [hs] at ht
    split_ifs at ht with hblank hoperator hcomment hexp hback hsingle hdouble
    · cases ht
      exact of_lt (by simp [hs, Quoting.length]) (by simp) (h.ended_close c)
    · cases ht
      exact of_lt (by simp [hs, Quoting.length]) (by simp) (ended_add (h.ended_close c))
    · cases ht
      exact h.kept rfl (by simp [hs, Quoting.length]) (by simp)
    · cases ht
      exact h.kept rfl (by simp [hs, Quoting.length]) (by simp)
    · cases ht
      exact h.kept rfl (by simp [hs, Quoting.length]) (by simp)
    · cases ht
      exact h.kept rfl (by simp [hs, Quoting.length]) (by simp)
    · cases ht
      apply h.push hs
      · simp [isOrdinary, isQuote, hblank, hoperator, hexp, hback, hsingle, hdouble]
      · by_cases heq : c = '#'
        · exact .inr (by simpa [heq, Option.isSome_iff_ne_none] using hcomment)
        · exact .inl heq
  | backslash =>
    simp only [hs] at ht
    split_ifs at ht
    · cases ht
      exact h.kept rfl (by simp [hs, Quoting.length]; omega) (by simp)
    · cases ht
      exact h.kept rfl (by simp [hs, Quoting.length]) (by simp [hs, Quoting.length])
  | single =>
    simp only [hs] at ht
    split_ifs at ht
    · cases ht
      exact h.kept rfl (by simp [hs, Quoting.length]; omega) (by simp)
    · cases ht
      exact h.kept rfl (by simp [hs, Quoting.length]) (by simp [hs, Quoting.length])
  | double =>
    simp only [hs] at ht
    split_ifs at ht
    · cases ht
      exact h.kept rfl (by simp [hs, Quoting.length]; omega) (by simp)
    · cases ht
      exact h.kept rfl (by simp [hs, Quoting.length]) (by simp)
    · cases ht
      exact h.kept rfl (by simp [hs, Quoting.length]) (by simp [hs, Quoting.length])
  | doubleBackslash =>
    simp only [hs] at ht
    split_ifs at ht
    · cases ht
      exact h.kept rfl (by simp [hs, Quoting.length]) (by simp)
    · cases ht
      exact h.kept rfl (by simp [hs, Quoting.length]) (by simp [hs, Quoting.length])
    · cases ht
      exact h.kept rfl (by simp [hs, Quoting.length]) (by simp [hs, Quoting.length])
  | comment =>
    simp only [hs] at ht
    split_ifs at ht
    · cases ht
      rw [hs] at hbound
      exact of_lt (by simpa [Quoting.length] using Nat.le_succ_of_le hbound)
        (by simpa [Quoting.length] using Nat.lt_succ_of_le hbound)
        (ended_add (h.ended_succ c))
    · cases ht
      exact h.kept rfl (by simp) (by simp)

/-- **The end of a text**, read behind tokens. -/
theorem of_foldlM (h : cs.foldlM Shell.lexChar ⟨ts, none, .none⟩ = .ok s) : Read ts cs s := by
  induction cs using List.reverseRecOn generalizing s with
  | nil =>
    cases h
    exact .nil
  | append_singleton cs c ih =>
    rw [List.foldlM_append] at h
    obtain ⟨t, ht, hc⟩ := bind_eq_ok.mp h
    rw [List.foldlM_cons] at hc
    obtain ⟨u, hu, hnil⟩ := bind_eq_ok.mp hc
    cases hnil
    exact (ih ht).lexChar hu

end Read

/-! ### The last word -/

/-- A plain word that no environment changes. -/
structure FixedWord (w : List Char) : Prop extends PlainWord w where
  /-- It is not a pattern. -/
  pattern : isPattern (w.map .plain) = false
  /-- It does not begin with a tilde. -/
  tilde : hasTilde (w.map .plain) = false

instance (w : List Char) : Decidable (FixedWord w) :=
  decidable_of_iff (PlainWord w ∧ isPattern (w.map .plain) = false ∧ hasTilde (w.map .plain) = false)
    ⟨fun ⟨h₁, h₂, h₃⟩ => ⟨h₁, h₂, h₃⟩, fun ⟨h₁, h₂, h₃⟩ => ⟨h₁, h₂, h₃⟩⟩

/-- A word without any character that has a meaning to the shell. -/
theorem FixedWord.of_chars (hne : w ≠ [])
    (h : ∀ c ∈ w, isOrdinary c ∧ c ∉ ['#', '~', '*', '?', '[']) : FixedWord w := by
  have hpattern : ∀ v : List Char, (∀ c ∈ v, c ∉ ['#', '~', '*', '?', '[']) →
      isPattern (v.map .plain) = false := by
    intro v hv
    induction v with
    | nil => rfl
    | cons c v ih =>
      obtain ⟨hc, hv⟩ := List.forall_mem_cons.mp hv
      simp only [List.mem_cons, not_or] at hc
      simp [isPattern, hc, ih hv]
  have hhead : ∀ d ∈ ['#', '~', '*', '?', '['], w.head? ≠ some d := fun d hd heq =>
    (h d (List.mem_of_head? heq)).2 hd
  refine ⟨⟨hne, fun c hc => (h c hc).1, hhead _ (by simp)⟩, hpattern w fun c hc => (h c hc).2, ?_⟩
  unfold hasTilde
  rw [List.head?_map, decide_eq_false_iff_not]
  intro heq
  obtain ⟨d, hd, hplain⟩ := Option.map_eq_some_iff.mp heq
  cases hplain
  exact hhead _ (by simp) hd

theorem map_char_plain (w : List Char) : (w.map Piece.plain).map Piece.char = w := by
  induction w with
  | nil => rfl
  | cons c w ih => exact congrArg (c :: ·) ih

theorem FixedWord.fixed (h : FixedWord w) : (Token.word (w.map .plain)).fixed = some w := by
  rw [Token.fixed, h.pattern, h.tilde, Bool.or_false, if_neg Bool.false_ne_true, map_char_plain]

theorem fixed_word_eq_some {pieces : List Piece} (h : (Token.word pieces).fixed = some w) :
    isPattern pieces = false ∧ hasTilde pieces = false ∧ pieces.map Piece.char = w := by
  unfold Token.fixed at h
  dsimp only at h
  split_ifs at h with hnot
  rw [Bool.or_eq_true, not_or, Bool.not_eq_true, Bool.not_eq_true] at hnot
  exact ⟨hnot.1, hnot.2, Option.some.inj h⟩

/-- Words that no environment changes are the words of the text. -/
theorem commandWords_words {ws : List (List Char)} (hws : ∀ v ∈ ws, FixedWord v) (hw : FixedWord w) :
    commandWords (ws.flatMap (· ++ [' ']) ++ w) = some (ws ++ [w]) := by
  have hlex : lex (ws.flatMap (· ++ [' ']) ++ w) =
      .ok ((ws ++ [w]).map fun v => .word (v.map .plain)) := by
    unfold lex
    rw [List.foldlM_append, LexState.start, lex_words fun v hv => (hws v hv).toPlainWord, ok_bind,
      foldlM_plainWord hw.toPlainWord, ok_bind]
    simp [LexState.finish, LexState.close]
  have hfixed : ∀ v ∈ ws ++ [w], (Token.word (v.map .plain)).fixed = some v := by
    intro v hv
    rcases List.mem_append.mp hv with hv | hv
    · exact (hws v hv).fixed
    · rw [List.mem_singleton.mp hv]
      exact hw.fixed
  unfold commandWords
  rw [hlex]
  dsimp only
  generalize ws ++ [w] = vs at hfixed ⊢
  induction vs with
  | nil => rfl
  | cons v vs ih =>
    rw [List.map_cons, List.mapM_cons, hfixed v (List.mem_cons_self ..),
      ih fun u hu => hfixed u (List.mem_cons_of_mem _ hu)]
    rfl

/-- The quotes go, and what they quote stays in one word. -/
example : commandWords ['a', ' ', doubleQuote, 'b', ' ', 'c', doubleQuote] =
    some [['a'], ['b', ' ', 'c']] := by decide

/-- The last of the results is that of the last token. -/
theorem mapM_reverse_eq_some {α β : Type} {f : α → Option β} {l : List α} {bs : List β} {b : β}
    (h : l.reverse.mapM f = some (bs ++ [b])) : ∃ a rest, l = a :: rest ∧ f a = some b := by
  cases l with
  | nil => simp at h
  | cons a rest =>
    rw [List.reverse_cons, List.mapM_append] at h
    simp only [Option.bind_eq_bind, Option.bind_eq_some_iff, Option.pure_def, Option.some.injEq] at h
    obtain ⟨xs, -, ys, hys, heq⟩ := h
    rw [List.mapM_cons, List.mapM_nil] at hys
    simp only [Option.bind_eq_bind, Option.bind_eq_some_iff, Option.pure_def, Option.some.injEq,
      exists_eq_left'] at hys
    obtain ⟨y, hy, rfl⟩ := hys
    exact ⟨a, rest, rfl, hy.trans (congrArg some (List.cons.inj (List.append_inj' heq rfl).2).1)⟩

/-- **A last word as long as the end of the text** is that end, and stands for itself there; else the
end of the text adds no word. -/
theorem fixedWord_of_commandWords {before : List Char} {ws : List (List Char)}
    (hbefore : before.foldlM lexChar .start = .ok ⟨ts, none, .none⟩)
    (h : commandWords (before ++ cs) = some (ws ++ [w])) (hlen : cs.length ≤ w.length) :
    w = cs ∧ FixedWord cs ∨ ¬ PlainWord cs ∧ ts.head?.bind Token.fixed = some w := by
  unfold commandWords at h
  split at h
  case h_2 => cases h
  next tokens hlex =>
  unfold lex at hlex
  rw [List.foldlM_append, hbefore, ok_bind] at hlex
  obtain ⟨s, hs, hfinish⟩ := bind_eq_ok.mp hlex
  have hread := Read.of_foldlM hs
  have htokens : tokens = s.close.tokens.reverse := by
    unfold LexState.finish at hfinish
    split at hfinish <;> cases hfinish <;> rfl
  rw [htokens] at h
  obtain ⟨t, rest, hclose, ht⟩ := mapM_reverse_eq_some h
  have hbound := hread.bound
  unfold LexState.close at hclose
  split at hclose
  · next hnone =>
    obtain ⟨new, hnew, hshort⟩ := hread.ended
    rw [hnew] at hclose
    cases new with
    | nil =>
      right
      rw [List.nil_append] at hclose
      refine ⟨fun hplain => ?_, by rw [hclose]; exact ht⟩
      rw [foldlM_plainWord hplain] at hs
      cases hs
      cases hnone
    | cons u new =>
      obtain ⟨rfl, -⟩ := List.cons.inj hclose
      cases u with
      | operator c => cases ht
      | word v =>
        have hlt := hshort v (List.mem_cons_self ..)
        have heq := congrArg List.length (fixed_word_eq_some ht).2.2
        rw [List.length_map] at heq
        omega
  · next v hv =>
    obtain ⟨rfl, -⟩ := List.cons.inj hclose
    obtain ⟨hpattern, htilde, hchars⟩ := fixed_word_eq_some ht
    have heq := congrArg List.length hchars
    rw [List.length_map, List.length_reverse] at heq
    have hpieces : s.pieces = v.length := by rw [LexState.pieces, hv, Option.getD_some]
    obtain ⟨-, -, hplain⟩ := hread.full (by omega)
    rcases hplain with ⟨-, hnone⟩ | ⟨hplain, hsome⟩
    · rw [hnone] at hv
      cases hv
    · rw [hsome] at hv
      cases hv
      rw [List.reverse_reverse] at hpattern htilde hchars
      rw [map_char_plain] at hchars
      exact .inl ⟨hchars.symm, hplain, hpattern, htilde⟩

end HardwareDrivers.Theory.Shell
