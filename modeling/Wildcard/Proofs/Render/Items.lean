import Wildcard.Proofs.Pattern.Normal
import Wildcard.Proofs.Render.Coverage
import Wildcard.Proofs.Render.Tokens
import Wildcard.Proofs.Token.Runs

/-! Rows of items in writing.
A row is written item by item, and its tokens are the tokens of its items. They are read as the
same items again, since no literal is next to another.
-/

namespace Wildcard

namespace Pattern

/-- Items are checked one by one, by induction on them. -/
theorem everyNodeOfAll_iff {check : Pattern → Bool} {items : List Pattern}
    : everyNodeOfAll check items ↔ ∀ item ∈ items, item.everyNode check := by
  induction items with
  | nil => simp [everyNodeOfAll]
  | cons item items ih => simp only [everyNodeOfAll, Bool.and_eq_true, ih, List.forall_mem_cons]

/-- A row of items is free of choices if none of the items is one. -/
theorem everyNode_isNotChoice_ofItems {items : List Pattern}
    (areItems : ∀ item ∈ items, item.IsItem)
    : (ofItems items).everyNode isNotChoice ↔ ∀ item ∈ items, item.isNotChoice := by
  have single (item : Pattern) (member : item ∈ items)
      : item.everyNode isNotChoice ↔ item.isNotChoice := by
    cases areItems item member <;> exact Iff.rfl
  have all : everyNodeOfAll isNotChoice items ↔ ∀ item ∈ items, item.isNotChoice :=
    everyNodeOfAll_iff.trans (forall₂_congr single)
  match items with
  | [] => exact all
  | [item] => simpa only [everyNodeOfAll, Bool.and_true, ofItems] using all
  | _ :: _ :: _ => exact all

end Pattern

open Pattern (NormalItems)

namespace Spelling

variable {sp : Spelling} {f : List Token → List Pattern} {items : List Pattern}

/-- The items that a reader of a language makes of tokens. -/
structure Itemizes (sp : Spelling) (f : List Token → List Pattern) : Prop where
  done : f [] = []
  text : ∀ chars tokens, f (.text chars :: tokens) = .literal chars :: f tokens
  anyChar : ∀ tokens, f (.operator sp.anyChar :: tokens) = .anyChar :: f tokens
  anyString : ∀ tokens, f (.operator sp.anyString :: tokens) = .anyString :: f tokens
  choice : ∀ first last, sp.brackets = some (first, last) → ∀ (candidates : List Char) tokens,
    f (.operator first :: candidates.foldr Token.prepend (.operator last :: tokens))
      = .oneOf candidates :: f tokens

/-- Only a literal begins with a run. -/
theorem not_isText_head?_tokensAll (normal : NormalItems items)
    (apart : ∀ next ∈ items.head?, ¬ next.isLiteral)
    : ∀ token ∈ (tokensAll sp items []).head?, ¬ token.isText := by
  cases items with
  | nil => exact nofun
  | cons item items =>
      cases normal.areItems item List.mem_cons_self with
      | literal nonempty => exact absurd rfl (apart _ rfl)
      | anyChar => simp [tokensAll, tokens, Token.isText]
      | anyString => simp [tokensAll, tokens, Pattern.anyString, Nat.repeat, Token.isText]
      | oneOf candidates =>
          cases hbrackets : sp.brackets <;>
            simp [tokensAll, tokens, hbrackets, Token.isText]

/-- The tokens of normal items are read as these items, by induction on them. -/
theorem Itemizes.items_tokensAll (h : sp.Itemizes f) (normal : NormalItems items)
    (spelled : sp.brackets.isSome ∨ ∀ item ∈ items, item.isNotChoice)
    : f (tokensAll sp items []) = items := by
  induction items with
  | nil => exact h.done
  | cons item items ih =>
      have others := ih normal.tail
        (spelled.imp_right fun all next member => all next (List.mem_cons_of_mem item member))
      cases normal.areItems item List.mem_cons_self with
      | anyChar => rw [tokensAll, tokens, h.anyChar, others]
      | anyString =>
          change f (.operator sp.anyString :: tokensAll sp items []) = _
          rw [h.anyString, others]
      | @literal text nonempty =>
          have apart : ∀ next ∈ items.head?, ¬ next.isLiteral :=
            fun _ member => normal.apart.rel_head? member rfl
          rw [tokensAll, tokens, Token.foldr_prepend_eq_cons_text nonempty
            (not_isText_head?_tokensAll normal.tail apart), h.text, others]
      | oneOf candidates =>
          cases hbrackets : sp.brackets with
          | none =>
              simp [hbrackets, Pattern.isNotChoice] at spelled
          | some brackets =>
              obtain ⟨first, last⟩ := brackets
              simp only [tokensAll, tokens, hbrackets]
              rw [h.choice first last hbrackets, others]

theorem written_anyString (e : Escaping)
    : written sp e .anyString = .ok [sp.anyString] := by
  have fits : Text.fits (Text.byteLength [sp.anyChar]) 0 = true := by simp [Text.fits]
  change sp.repetition [sp.anyChar] 0 = _
  rw [repetition, if_pos fits]
  rfl

/-- What is read is always written, by induction on the items. -/
theorem exists_writtenAll (e : Escaping) (areFlat : ∀ item ∈ items, item.IsFlat)
    : ∃ text, writtenAll sp e items = .ok text := by
  induction items with
  | nil => exact ⟨[], rfl⟩
  | cons item items ih =>
      have ⟨isFlat, others⟩ := List.forall_mem_cons.mp areFlat
      obtain ⟨rest, hrest⟩ := ih others
      have here : ∃ text, written sp e item = .ok text := by
        cases isFlat with
        | anyChar | literal | oneOf => exact ⟨_, rfl⟩
        | anyString => exact ⟨_, written_anyString e⟩
      obtain ⟨text, htext⟩ := here
      exact ⟨text ++ rest, by rw [writtenAll, htext, hrest]; rfl⟩

@[simp]
theorem written_ofItems (e : Escaping)
    : written sp e (.ofItems items) = writtenAll sp e items := by
  match items with
  | [] => rfl
  | [item] =>
      change _ = (written sp e item >>= fun text => .ok (text ++ []))
      cases hitem : written sp e item with
      | error fault => simp [Pattern.ofItems, hitem, bind, Except.bind]
      | ok text => simp [Pattern.ofItems, hitem, bind, Except.bind]
  | _ :: _ :: _ => rfl

@[simp]
theorem tokens_ofItems (rest : List Token)
    : tokens sp (.ofItems items) rest = tokensAll sp items rest := by
  match items with
  | [] | [_] | _ :: _ :: _ => rfl

@[simp]
theorem wildcardsIn_ofItems
    : sp.wildcardsIn (.ofItems items) = sp.wildcardsInAll items := by
  match items with
  | [] | _ :: _ :: _ => rfl
  | [item] => exact (List.append_nil _).symm

/-- The text of a normal pattern is read as the items of the pattern. -/
theorem Itemizes.exists_render (h : sp.Itemizes f) {a : Alphabet} {escape : Char}
    {extra : List Char}
    (reads : sp.ReadBy (Escaping.ofOperators sp.operators (some escape) extra) a escape)
    (normal : NormalItems items)
    (spelled : sp.brackets.isSome ∨ ∀ item ∈ items, item.isNotChoice)
    : ∃ source, (Pattern.ofItems items).render (sp.renderer escape extra) = .ok source
        ∧ f (a.tokenize source) = items := by
  have written : ∃ source, writtenAll sp _ items = .ok source :=
    exists_writtenAll (Escaping.ofOperators sp.operators (some escape) extra)
      fun item member => (normal.areItems item member).isFlat
  obtain ⟨source, hsource⟩ := written
  have rendered : (Pattern.ofItems items).render (sp.renderer escape extra) = .ok source := by
    rw [render_eq_written, written_ofItems, hsource]
  refine ⟨source, rendered, ?_⟩
  rw [reads.tokenize_render rendered, tokens_ofItems, h.items_tokensAll normal spelled]

end Spelling

end Wildcard
