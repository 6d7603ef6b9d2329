import Mathlib.Data.List.Forall2
import Wildcard.Proofs.Render.Coverage
import Wildcard.Proofs.Unix.Items

/-! Wildcards inside a larger language.
The language adds operators of its own, and a writer escapes them. What is written for a pattern is
read to its end before such an operator, which is left for the reader of the language.
-/

namespace Wildcard.Unix

variable {rest short long : List Token}

/-- The alphabet of a language that separates wildcards by operators of its own. -/
def alphabetWith (extra : List Char) (escape : Char) : Alphabet :=
  ⟨some escape, (CharSet.ofList operators).union extra⟩

/-- Texts one after the other, with a separator between any two. -/
def joined : List (List Char) → List Char → List Char
  | text :: texts, separator :: separators => text ++ separator :: joined texts separators
  | texts, _ => texts.flatten

/-- Reads so many wildcards from a stream. Each comes with the token where its reading stops, and
the next is read from behind that token. -/
def readEach : Nat → TokenStream → List (Pattern × Option Token)
  | 0, _ => []
  | count + 1, stream =>
      let (p, after) := read stream
      (p, after.current) :: readEach count after.advance

theorem readEach_of_read {stream after : TokenStream} {p : Pattern} {count : Nat}
    (h : read stream = (p, after))
    : readEach (count + 1) stream = (p, after.current) :: readEach count after.advance := by
  rw [readEach, h]

-----------------------------------------------------------------------------------------
-- Before an operator that begins no item
-----------------------------------------------------------------------------------------

/-- Tokens go on with others, and their items end where the others begin. -/
structure EndsBefore (rest short long : List Token) : Prop where
  goesOn : long = short ++ rest
  unread : items long = ((items short).1, rest)

/-- One more item in front is read on both sides. -/
theorem EndsBefore.cons (h : EndsBefore rest short long) (front : List Token) {item : Pattern}
    (hitem : ∀ tokens, item? (front ++ tokens) = some (item, tokens))
    : EndsBefore rest (front ++ short) (front ++ long) where
  goesOn := by rw [h.goesOn, List.append_assoc]
  unread := by rw [items_of_item? (hitem long), items_of_item? (hitem short), h.unread]

theorem EndsBefore.text (h : EndsBefore rest short long) (chars : List Char)
    : EndsBefore rest (.text chars :: short) (.text chars :: long) :=
  h.cons [.text chars] fun _ => rfl

/-- A run in front may be taken away. -/
theorem EndsBefore.of_text {chars : List Char}
    (h : EndsBefore rest (.text chars :: short) (.text chars :: long))
    : EndsBefore rest short long where
  goesOn := (List.cons.inj h.goesOn).2
  unread := by
    have items_text (tokens : List Token) : items (.text chars :: tokens)
        = (.literal chars :: (items tokens).1, (items tokens).2) := items_of_item? rfl
    have whole := h.unread
    rw [items_text long, items_text short] at whole
    obtain ⟨found, unread⟩ := Prod.mk.inj whole
    exact Prod.ext (List.cons.inj found).2 unread

/-- What begins no item does not begin with a run. -/
theorem not_isText_head?_of_item? (stops : item? rest = none)
    : ∀ token ∈ rest.head?, ¬ token.isText := by
  match rest with
  | [] => exact nofun
  | .text chars :: rest => exact absurd stops nofun
  | .operator op :: rest => simp [Token.isText]

/-- A character in front joins a run on both sides, or begins one on both. -/
theorem EndsBefore.prepend (stops : item? rest = none) (h : EndsBefore rest short long) (c : Char)
    : EndsBefore rest (Token.prepend c short) (Token.prepend c long) := by
  have shape := h.goesOn
  subst shape
  match short with
  | .text chars :: short => exact h.of_text.text (c :: chars)
  | .operator op :: short => exact h.text [c]
  | [] =>
      -- the rest begins with no run, so the character cannot join it
      have single : Token.prepend c rest = .text [c] :: rest :=
        Token.foldr_prepend_eq_cons_text (List.cons_ne_nil c []) (not_isText_head?_of_item? stops)
      rw [List.nil_append] at h ⊢
      rw [single]
      exact h.text [c]

/-- Whatever is written in front, the items still end before an operator that begins none. -/
theorem keeps_endsBefore (stops : item? rest = none)
    : spelling.Keeps (EndsBefore rest) where
  prepend c _ _ h := h.prepend stops c
  anyChar h := h.cons [.operator '?'] fun _ => rfl
  anyString h := h.cons [.operator '*'] fun _ => rfl
  choice first last hbrackets candidates short long h := by
    cases hbrackets
    obtain ⟨front, hfront⟩ := Token.exists_foldr_prepend_operator candidates ']'
    have closed : ∀ tokens, item? ((.operator '[' :: front) ++ tokens)
        = some (.oneOf candidates, tokens) := by
      intro tokens
      rw [List.cons_append, ← hfront, item?, enclosed_foldr]
    rw [hfront, hfront]
    exact h.cons (.operator '[' :: front) closed

/-- The tokens of a pattern are read to their end, and what follows is left unread. -/
theorem read_tokens (stops : item? rest = none) (p : Pattern)
    : read ⟨Spelling.tokens spelling p rest⟩
      = (Pattern.ofItems (items (Spelling.tokens spelling p [])).1, ⟨rest⟩) := by
  have ended : EndsBefore rest [] rest :=
    ⟨rfl, by rw [items_of_item?_eq_none stops, items_of_item?_eq_none rfl]⟩
  rw [read, ((keeps_endsBefore stops).tokens p ended).unread]

-----------------------------------------------------------------------------------------
-- Wildcards in a row
-----------------------------------------------------------------------------------------

variable {extra : List Char} {escape : Char}

/-- The larger language reads a wildcard as it was written, its own operators included. -/
theorem readBy_alphabetWith (hescape : escape ∉ ['*', '?', '[', ']']) (extra : List Char)
    : spelling.ReadBy (Escaping.ofOperators operators (some escape) extra)
        (alphabetWith extra escape) escape where
  escaped := by
    refine Spelling.readBy_ofOperators rfl ?_
    intro op hop
    simpa [alphabetWith] using hop
  isOperator := by
    intro op hop
    have known := (readBy_alphabet hescape extra).isOperator op hop
    rw [CharSet.contains_iff_mem] at known ⊢
    exact CharSet.mem_union.mpr (.inl known)
  notEscape := (readBy_alphabet hescape extra).notEscape

/-- A separator is read as an operator. -/
theorem tokenize_separator {separator : Char} (member : separator ∈ extra)
    (notExtra : escape ∉ extra) (source : List Char)
    : (alphabetWith extra escape).tokenize (separator :: source)
      = .operator separator :: (alphabetWith extra escape).tokenize source := by
  refine Alphabet.tokenize_cons_of_operator ?_ ?_ source
  · simp [alphabetWith, member]
  · have differs : escape ≠ separator := fun same => notExtra (same ▸ member)
    simp [Alphabet.isEscape, alphabetWith, differs]

/-- An operator that is none of a wildcard begins no item. -/
theorem item?_of_not_mem_operators {op : Char} (foreign : op ∉ operators) (tokens : List Token)
    : item? (.operator op :: tokens) = none := by
  unfold item?
  split <;> simp_all [operators]

/-- What is written for a pattern is read as it is read alone, up to text that begins no item. -/
theorem read_rendered (hescape : escape ∉ ['*', '?', '[', ']']) {p : Pattern}
    {text : List Char} (hp : p.render (spelling.renderer escape extra) = .ok text)
    (after : List Char) (stops : item? ((alphabetWith extra escape).tokenize after) = none)
    : read (.ofText (alphabetWith extra escape) (text ++ after))
      = (parse (alphabet (some escape)) text, .ofText (alphabetWith extra escape) after) := by
  have reads := readBy_alphabetWith hescape extra
  have alone : (alphabet (some escape)).tokenize text = Spelling.tokens spelling p [] :=
    (readBy_alphabet hescape extra).tokenize_render hp
  have inside : (alphabetWith extra escape).tokenize (text ++ after)
      = Spelling.tokens spelling p ((alphabetWith extra escape).tokenize after) := by
    rw [Spelling.render_eq_written] at hp
    exact reads.knownBy.tokenize_written p hp (reads.not_mem_wildcardsIn p) after
  rw [TokenStream.ofText, inside, read_tokens stops, parse, TokenStream.ofText, alone]
  rfl

/-- Wildcards that are written for patterns and separated by operators of the larger language are
read one by one as they are read alone, by induction on the patterns. Each reading stops at the
separator, and the last one at the end. -/
theorem readEach_joined {patterns : List Pattern} {texts : List (List Char)}
    {separators : List Char} (apart : ∀ op ∈ extra, op ∉ operators)
    (hescape : escape ∉ ['*', '?', '[', ']']) (notExtra : escape ∉ extra)
    (rendered : List.Forall₂
      (fun p text => p.render (spelling.renderer escape extra) = .ok text) patterns texts)
    (between : ∀ separator ∈ separators, separator ∈ extra)
    (oneBetween : separators.length + 1 = texts.length)
    : readEach texts.length (.ofText (alphabetWith extra escape) (joined texts separators))
      = (texts.map (parse (alphabet (some escape)))).zip
          (separators.map (fun separator => some (.operator separator)) ++ [none]) := by
  induction rendered generalizing separators with
  | nil => exact absurd oneBetween nofun
  | @cons p text patterns texts hp _ ih =>
      cases separators with
      | nil =>
          have last : texts = [] := List.length_eq_zero_iff.mp (Nat.succ_inj.mp oneBetween).symm
          subst last
          exact readEach_of_read (read_rendered hescape hp [] rfl)
      | cons separator separators =>
          have ⟨isExtra, others⟩ := List.forall_mem_cons.mp between
          -- the separator begins no item, so the reading stops in front of it
          have split := tokenize_separator isExtra notExtra (joined texts separators)
          have stops : item? ((alphabetWith extra escape).tokenize
              (separator :: joined texts separators)) = none := by
            rw [split]
            exact item?_of_not_mem_operators (apart separator isExtra) _
          let behind := separator :: joined texts separators
          calc readEach (texts.length + 1) (.ofText _ (text ++ behind))
              = _ := readEach_of_read (read_rendered hescape hp behind stops)
            _ = (parse (alphabet (some escape)) text, some (.operator separator))
                  :: readEach texts.length (.ofText _ (joined texts separators)) := by
                rw [TokenStream.ofText, split]
                rfl
            _ = _ := congrArg _ (ih others (Nat.succ_inj.mp oneBetween))

/-- Three wildcards with separators inside a literal and a class, and none in the middle. -/
theorem readEach_joined_separators
    : let patterns : List Pattern :=
        [.group [.literal ['a', '|'], .anyString], .empty, .oneOf [']', ',']]
      let texts : List (List Char) := [['a', '!', '|', '*'], [], ['[', '!', ']', '!', ',', ']']]
      let read := parse (alphabet (some '!'))
      List.Forall₂ (fun p text => p.render (spelling.renderer '!' ['|', ',']) = .ok text)
          patterns texts
        ∧ readEach 3 (.ofText (alphabetWith ['|', ','] '!')
            ['a', '!', '|', '*', ',', '|', '[', '!', ']', '!', ',', ']'])
          = [(read ['a', '!', '|', '*'], some (.operator ',')), (read [], some (.operator '|')),
            (read ['[', '!', ']', '!', ',', ']'], none)] := by
  intro patterns texts read
  have rendered : List.Forall₂
      (fun p text => p.render (spelling.renderer '!' ['|', ',']) = .ok text) patterns texts :=
    .cons rfl (.cons rfl (.cons rfl .nil))
  have apart : ∀ op ∈ ['|', ','], op ∉ operators := by simp [operators]
  have between : ∀ separator ∈ [',', '|'], separator ∈ ['|', ','] := by simp
  exact ⟨rendered, readEach_joined apart (by decide) (by decide) rendered between rfl⟩

end Wildcard.Unix
