import Wildcard.Proofs.Render.Written
import Wildcard.Proofs.Token.Splitting

/-! What is written for a pattern splits into the tokens of the pattern.
A reader that shares the escape of the writer and knows its operators finds an operator where one
was written and an ordinary run where a text was escaped, whatever follows.
-/

namespace Wildcard.Spelling

/-- The characters that are written without an escape. -/
def wildcards (sp : Spelling) : List Char :=
  sp.anyChar :: sp.anyString :: match sp.brackets with
    | none => []
    | some (first, last) => [first, last]

/-- A reader takes every wildcard for an operator, and everything else as it was escaped. -/
structure ReadBy (sp : Spelling) (e : Escaping) (a : Alphabet) (escape : Char) : Prop where
  escaped : e.ReadBy a escape
  isOperator : ∀ op ∈ sp.wildcards, a.operators.contains op
  notEscape : escape ∉ sp.wildcards

/-- A reader takes every wildcard but its escape for an operator, and everything else as it was
escaped. -/
structure KnownBy (sp : Spelling) (e : Escaping) (a : Alphabet) (escape : Char) : Prop where
  escaped : e.ReadBy a escape
  isOperator : ∀ op ∈ sp.wildcards, a.operators.contains op

theorem mem_wildcards_of_brackets {sp : Spelling} {first last : Char}
    (h : sp.brackets = some (first, last))
    : first ∈ sp.wildcards ∧ last ∈ sp.wildcards := by
  simp [wildcards, h]

mutual

/-- The wildcards in what is written for a pattern. The body of a repetition is not written for a
count of zero. -/
def wildcardsIn (sp : Spelling) : Pattern → List Char
  | .empty | .literal _ => []
  | .anyChar => [sp.anyChar]
  | .oneOf _ =>
      match sp.brackets with
      | none => [sp.anyChar]
      | some (first, last) => [first, last]
  | .group items => wildcardsInAll sp items
  | .atLeast body count => sp.anyString :: if count = 0 then [] else wildcardsIn sp body

def wildcardsInAll (sp : Spelling) : List Pattern → List Char
  | [] => []
  | item :: items => wildcardsIn sp item ++ wildcardsInAll sp items

end

mutual

/-- The wildcards of a pattern are wildcards of the language, by induction on the pattern. -/
theorem wildcardsIn_subset (sp : Spelling) (p : Pattern)
    : sp.wildcardsIn p ⊆ sp.wildcards := by
  cases p with
  | empty | literal => exact List.nil_subset _
  | anyChar => exact List.cons_subset.mpr ⟨List.mem_cons_self, List.nil_subset _⟩
  | oneOf candidates =>
      rw [wildcardsIn]
      cases hbrackets : sp.brackets with
      | none => exact List.cons_subset.mpr ⟨List.mem_cons_self, List.nil_subset _⟩
      | some brackets =>
          obtain ⟨hfirst, hlast⟩ := mem_wildcards_of_brackets hbrackets
          exact List.cons_subset.mpr ⟨hfirst, List.cons_subset.mpr ⟨hlast, List.nil_subset _⟩⟩
  | group items => exact wildcardsInAll_subset sp items
  | atLeast body count =>
      rw [wildcardsIn]
      refine List.cons_subset.mpr ⟨by simp [wildcards], ?_⟩
      split
      · exact List.nil_subset _
      · exact wildcardsIn_subset sp body

theorem wildcardsInAll_subset (sp : Spelling) (items : List Pattern)
    : sp.wildcardsInAll items ⊆ sp.wildcards := by
  cases items with
  | nil => exact List.nil_subset _
  | cons item items =>
      exact List.append_subset.mpr ⟨wildcardsIn_subset sp item, wildcardsInAll_subset sp items⟩

end

mutual

/-- The tokens that are written for a pattern, before the tokens of what follows. -/
def tokens (sp : Spelling) : Pattern → List Token → List Token
  | .empty, rest => rest
  | .anyChar, rest => .operator sp.anyChar :: rest
  | .literal text, rest => text.foldr Token.prepend rest
  | .oneOf candidates, rest =>
      match sp.brackets with
      | none => .operator sp.anyChar :: rest
      | some (first, last) =>
          .operator first :: candidates.foldr Token.prepend (.operator last :: rest)
  | .group items, rest => tokensAll sp items rest
  | .atLeast body count, rest =>
      Nat.repeat (fun rest => tokens sp body rest) count (.operator sp.anyString :: rest)

def tokensAll (sp : Spelling) : List Pattern → List Token → List Token
  | [], rest => rest
  | item :: items, rest => tokens sp item (tokensAll sp items rest)

end

variable {sp : Spelling} {e : Escaping} {a : Alphabet} {escape : Char}

/-- A relation between tokens that stays when the same is written in front of both. -/
structure Keeps (sp : Spelling) (R : List Token → List Token → Prop) : Prop where
  prepend : ∀ c {left right}, R left right → R (Token.prepend c left) (Token.prepend c right)
  anyChar : ∀ {left right}, R left right →
    R (.operator sp.anyChar :: left) (.operator sp.anyChar :: right)
  anyString : ∀ {left right}, R left right →
    R (.operator sp.anyString :: left) (.operator sp.anyString :: right)
  choice : ∀ first last, sp.brackets = some (first, last) →
    ∀ (candidates : List Char) {left right}, R left right →
      R (.operator first :: candidates.foldr Token.prepend (.operator last :: left))
        (.operator first :: candidates.foldr Token.prepend (.operator last :: right))

mutual

/-- Such a relation stays when a pattern is written in front, by induction on the pattern. -/
theorem Keeps.tokens {R : List Token → List Token → Prop} (h : sp.Keeps R) (p : Pattern)
    {left right : List Token} (related : R left right)
    : R (tokens sp p left) (tokens sp p right) := by
  cases p with
  | empty => exact related
  | anyChar => exact h.anyChar related
  | literal text =>
      change R (text.foldr Token.prepend left) (text.foldr Token.prepend right)
      induction text with
      | nil => exact related
      | cons c text ih => exact h.prepend c ih
  | oneOf candidates =>
      rw [Spelling.tokens, Spelling.tokens]
      cases hbrackets : sp.brackets with
      | none => exact h.anyChar related
      | some brackets => exact h.choice brackets.1 brackets.2 hbrackets candidates related
  | group items => exact h.tokensAll items related
  | atLeast body count =>
      change R (Nat.repeat (Spelling.tokens sp body) count _) (Nat.repeat _ count _)
      induction count with
      | zero => exact h.anyString related
      | succ count ih => exact h.tokens body ih

theorem Keeps.tokensAll {R : List Token → List Token → Prop} (h : sp.Keeps R)
    (items : List Pattern) {left right : List Token} (related : R left right)
    : R (tokensAll sp items left) (tokensAll sp items right) := by
  cases items with
  | nil => exact related
  | cons item items => exact h.tokens item (h.tokensAll items related)

end

theorem ReadBy.knownBy (h : sp.ReadBy e a escape)
    : sp.KnownBy e a escape where
  escaped := h.escaped
  isOperator := h.isOperator

theorem ReadBy.not_mem_wildcardsIn (h : sp.ReadBy e a escape) (p : Pattern)
    : escape ∉ sp.wildcardsIn p :=
  fun member => h.notEscape (wildcardsIn_subset sp p member)

theorem KnownBy.tokenize_wildcard (h : sp.KnownBy e a escape) {op : Char}
    (hop : op ∈ sp.wildcards) (differs : escape ≠ op) (rest : List Char)
    : a.tokenize (op :: rest) = .operator op :: a.tokenize rest := by
  refine Alphabet.tokenize_cons_of_operator (h.isOperator op hop) ?_ rest
  simp [Alphabet.isEscape, h.escaped.reads, differs]

/-- Copies of a text split into copies of its tokens, by induction on their number. -/
theorem tokenize_flatten_replicate {text : List Char} {before : List Token → List Token}
    (h : ∀ rest, a.tokenize (text ++ rest) = before (a.tokenize rest)) (count : Nat)
    (rest : List Char)
    : a.tokenize ((List.replicate count text).flatten ++ rest)
      = Nat.repeat before count (a.tokenize rest) := by
  induction count with
  | zero => rfl
  | succ count ih =>
      rw [List.replicate_succ, List.flatten_cons, List.append_assoc, h, ih]
      rfl

theorem KnownBy.tokenize_choice (h : sp.KnownBy e a escape) {candidates : List Char}
    (notEscape : escape ∉ sp.wildcardsIn (.oneOf candidates)) (rest : List Char)
    : a.tokenize (sp.choice e candidates ++ rest)
      = tokens sp (.oneOf candidates) (a.tokenize rest) := by
  rw [choice, tokens]
  rw [wildcardsIn] at notEscape
  cases hbrackets : sp.brackets with
  | none =>
      rw [hbrackets] at notEscape
      exact h.tokenize_wildcard List.mem_cons_self (List.ne_of_not_mem_cons notEscape) rest
  | some brackets =>
      obtain ⟨first, last⟩ := brackets
      obtain ⟨hfirst, hlast⟩ := mem_wildcards_of_brackets hbrackets
      rw [hbrackets] at notEscape
      have notFirst : escape ≠ first := List.ne_of_not_mem_cons notEscape
      have notLast : escape ≠ last :=
        List.ne_of_not_mem_cons (List.not_mem_of_not_mem_cons notEscape)
      dsimp only
      rw [List.append_assoc, List.cons_append, h.tokenize_wildcard hfirst notFirst,
        h.escaped.tokenize_apply, List.singleton_append, h.tokenize_wildcard hlast notLast]

mutual

/-- What is written for a pattern splits into its tokens, unless the escape is one of the wildcards
in it, by induction on the pattern. -/
theorem KnownBy.tokenize_written (h : sp.KnownBy e a escape) (p : Pattern) {text : List Char}
    (hp : written sp e p = .ok text) (notEscape : escape ∉ sp.wildcardsIn p) (rest : List Char)
    : a.tokenize (text ++ rest) = tokens sp p (a.tokenize rest) := by
  cases p with
  | empty =>
      cases hp
      rfl
  | anyChar =>
      cases hp
      exact h.tokenize_wildcard List.mem_cons_self (List.ne_of_not_mem_cons notEscape) rest
  | literal chars =>
      cases hp
      exact h.escaped.tokenize_apply chars rest
  | oneOf candidates =>
      cases hp
      exact h.tokenize_choice notEscape rest
  | group items => exact h.tokenize_writtenAll items hp notEscape rest
  | atLeast body count =>
      rw [written] at hp
      obtain ⟨bodyText, hbody, hp⟩ := exists_of_bind_eq_ok hp
      have anyString : sp.anyString ∈ sp.wildcards := by simp [wildcards]
      have differs : escape ≠ sp.anyString := List.ne_of_not_mem_cons notEscape
      rw [repetition] at hp
      split at hp
      · cases hp
        rw [Text.repeated_eq_flatten, List.append_assoc, List.singleton_append, tokens]
        cases count with
        | zero => exact h.tokenize_wildcard anyString differs rest
        | succ count =>
            have notInBody : escape ∉ sp.wildcardsIn body := List.not_mem_of_not_mem_cons notEscape
            rw [tokenize_flatten_replicate (h.tokenize_written body hbody notInBody),
              h.tokenize_wildcard anyString differs]
      · exact absurd hp nofun

theorem KnownBy.tokenize_writtenAll (h : sp.KnownBy e a escape) (items : List Pattern)
    {text : List Char} (hitems : writtenAll sp e items = .ok text)
    (notEscape : escape ∉ sp.wildcardsInAll items) (rest : List Char)
    : a.tokenize (text ++ rest) = tokensAll sp items (a.tokenize rest) := by
  cases items with
  | nil =>
      cases hitems
      rfl
  | cons item items =>
      rw [writtenAll] at hitems
      obtain ⟨first, hfirst, hitems⟩ := exists_of_bind_eq_ok hitems
      obtain ⟨more, hmore, hitems⟩ := exists_of_bind_eq_ok hitems
      cases hitems
      rw [wildcardsInAll, List.mem_append, not_or] at notEscape
      rw [List.append_assoc, h.tokenize_written item hfirst notEscape.1,
        h.tokenize_writtenAll items hmore notEscape.2, tokensAll]

end

/-- Rendered text splits into the tokens of its pattern, unless the escape is one of the wildcards
in it. -/
theorem KnownBy.tokenize_render {extra : List Char} {p : Pattern} {text : List Char}
    (h : sp.KnownBy (Escaping.ofOperators sp.operators (some escape) extra) a escape)
    (hp : p.render (sp.renderer escape extra) = .ok text) (notEscape : escape ∉ sp.wildcardsIn p)
    : a.tokenize text = tokens sp p [] := by
  rw [render_eq_written] at hp
  have split := h.tokenize_written p hp notEscape []
  rwa [List.append_nil] at split

/-- Rendered text splits into the tokens of its pattern. -/
theorem ReadBy.tokenize_render {extra : List Char} {p : Pattern} {text : List Char}
    (h : sp.ReadBy (Escaping.ofOperators sp.operators (some escape) extra) a escape)
    (hp : p.render (sp.renderer escape extra) = .ok text)
    : a.tokenize text = tokens sp p [] :=
  h.knownBy.tokenize_render hp (h.not_mem_wildcardsIn p)

/-- The escaping of a renderer is undone by a reader with the same escape whose operators it
escapes. -/
theorem readBy_ofOperators {operators extra : List Char}
    (hescape : a.escape = some escape)
    (hoperators : ∀ op, a.operators.contains op → op ∈ operators ∨ op ∈ extra)
    : (Escaping.ofOperators operators (some escape) extra).ReadBy a escape where
  writes := rfl
  reads := hescape
  escapeSpecial := by simp [Escaping.ofOperators]
  operatorsSpecial := by
    intro op hop
    simpa [Escaping.ofOperators] using Or.inl (hoperators op hop)

/-- The text of a renderer is read with the operators of its language. -/
theorem knownBy_alphabet (hoperators : sp.wildcards ⊆ sp.operators) (escape : Char)
    (extra : List Char)
    : sp.KnownBy (Escaping.ofOperators sp.operators (some escape) extra)
        ⟨some escape, CharSet.ofList sp.operators⟩ escape where
  escaped := readBy_ofOperators rfl fun _ hop => .inl (CharSet.contains_ofList.mp hop)
  isOperator _ hop := CharSet.contains_ofList.mpr (hoperators hop)

/-- The text of a renderer is read with the operators of its language, unless the escape is one of
the wildcards. -/
theorem readBy_alphabet (hoperators : sp.wildcards ⊆ sp.operators)
    (hescape : escape ∉ sp.wildcards) (extra : List Char)
    : sp.ReadBy (Escaping.ofOperators sp.operators (some escape) extra)
        ⟨some escape, CharSet.ofList sp.operators⟩ escape where
  escaped := (knownBy_alphabet hoperators escape extra).escaped
  isOperator := (knownBy_alphabet hoperators escape extra).isOperator
  notEscape := hescape

end Wildcard.Spelling
