import Wildcard.Proofs.Pattern.Simple
import Wildcard.Proofs.Render.RoundTrip

/-! Lower bounds of patterns that are written and read back.
A pattern that can be written has a bound, since every repetition in the bound is no longer than the
one that is written. What is read back is simple if the pattern is, and its bound stops at the same
item, though a choice that was written as any character adds nothing to it.
-/

namespace Wildcard

open Pattern (allSimple boundOfItems boundOfItems_cons_literal isNotChoice everyNodeOfAll)

theorem Escaping.byteLength_le_apply (e : Escaping) (text : List Char)
    : Text.byteLength text ≤ Text.byteLength (e.apply text) := by
  unfold apply
  split
  · exact Nat.le_refl _
  · next escape _ =>
      induction text with
      | nil => exact Nat.le_refl _
      | cons c text ih =>
          rw [List.flatMap_cons, Text.byteLength_append, Text.byteLength]
          refine Nat.add_le_add ?_ ih
          split <;> simp only [Text.byteLength] <;> omega

namespace Spelling

variable {sp : Spelling} {e : Escaping} {f : List Token → List Pattern}

-----------------------------------------------------------------------------------------
-- What is written has a bound
-----------------------------------------------------------------------------------------

/-- The texts of literals are written one after the other. -/
theorem written_relatesTexts (sp : Spelling) (e : Escaping)
    : Pattern.RelatesTexts (fun p text => written sp e p = .ok (e.apply text))
        (fun items text => writtenAll sp e items = .ok (e.apply text)) where
  empty := congrArg Except.ok e.apply_nil.symm
  literal _ := rfl
  group inside := inside
  nil := congrArg Except.ok e.apply_nil.symm
  cons here behind := by
    rw [writtenAll, here, behind, e.apply_append]
    rfl

mutual

/-- A pattern that can be written has a bound, by induction on the pattern. -/
theorem exists_lowerBound_of_written (p : Pattern) {text : List Char}
    (h : written sp e p = .ok text)
    : ∃ bound, p.lowerBound = .ok bound := by
  cases p with
  | empty | anyChar | literal | oneOf => exact ⟨_, rfl⟩
  | group items => exact exists_boundOfItems_of_writtenAll items h
  | atLeast body count =>
      rw [written] at h
      obtain ⟨bodyText, hbody, h⟩ := exists_of_bind_eq_ok h
      obtain ⟨bound, hbound⟩ := exists_lowerBound_of_written body hbody
      rw [Pattern.lowerBound]
      cases simple : body.isSimple with
      | true =>
          -- the bound is written with its escapes, so it is no longer than what is repeated
          cases hbody.symm.trans ((written_relatesTexts sp e).of_isSimple body simple hbound)
          rw [repetition] at h
          split at h
          · next fits =>
              have boundFits := Text.fits_of_le (e.byteLength_le_apply bound) fits
              refine ⟨Text.repeated count bound, ?_⟩
              rw [if_pos rfl, hbound]
              exact if_pos boundFits
          · exact absurd h nofun
      | false =>
          by_cases none : count = 0
          · exact ⟨[], by simp [none]⟩
          · exact ⟨bound, by simp [none, hbound]⟩

theorem exists_boundOfItems_of_writtenAll (items : List Pattern) {text : List Char}
    (h : writtenAll sp e items = .ok text)
    : ∃ bound, boundOfItems items = .ok bound := by
  cases items with
  | nil => exact ⟨[], rfl⟩
  | cons item items =>
      rw [writtenAll] at h
      obtain ⟨_, hitem, h⟩ := exists_of_bind_eq_ok h
      obtain ⟨_, hitems, -⟩ := exists_of_bind_eq_ok h
      obtain ⟨first, hfirst⟩ := exists_lowerBound_of_written item hitem
      obtain ⟨rest, hrest⟩ := exists_boundOfItems_of_writtenAll items hitems
      rw [boundOfItems, hfirst, hrest]
      cases item.isSimple with
      | true => exact ⟨first ++ rest, rfl⟩
      | false => exact ⟨first, rfl⟩

end

-----------------------------------------------------------------------------------------
-- What is read back has the bound
-----------------------------------------------------------------------------------------

/-- The tokens of literals are the characters of their texts. -/
theorem tokens_relatesTexts (sp : Spelling)
    : Pattern.RelatesTexts
        (fun p text => ∀ rest, tokens sp p rest = text.foldr Token.prepend rest)
        (fun items text => ∀ rest, tokensAll sp items rest = text.foldr Token.prepend rest) where
  empty _ := rfl
  literal _ _ := rfl
  group inside := inside
  nil _ := rfl
  cons here behind rest := by rw [tokensAll, here, behind, List.foldr_append]

/-- The tokens of a simple pattern are the characters of its bound. -/
theorem tokens_of_isSimple (sp : Spelling) {p : Pattern} (simple : p.isSimple)
    {bound : List Char} (h : p.lowerBound = .ok bound) (rest : List Token)
    : tokens sp p rest = bound.foldr Token.prepend rest :=
  (tokens_relatesTexts sp).of_isSimple p simple h rest

/-- A character in front leaves it open whether the items are simple and is a part of their
bound, whether or not it joins a literal. -/
theorem Itemizes.prepend (h : sp.Itemizes f) (c : Char) (tokens : List Token)
    : allSimple (f (Token.prepend c tokens)) = allSimple (f tokens)
      ∧ boundOfItems (f (Token.prepend c tokens)) = (boundOfItems (f tokens)).map (c :: ·) := by
  unfold Token.prepend
  split
  · next chars tokens =>
      rw [h.text, h.text, boundOfItems_cons_literal, boundOfItems_cons_literal]
      refine ⟨rfl, ?_⟩
      cases boundOfItems (f tokens) <;> rfl
  · rw [h.text, boundOfItems_cons_literal]
    exact ⟨rfl, rfl⟩

/-- So do several characters, by induction on them. -/
theorem Itemizes.foldr_prepend (h : sp.Itemizes f) (chars : List Char) (tokens : List Token)
    : allSimple (f (chars.foldr Token.prepend tokens)) = allSimple (f tokens)
      ∧ boundOfItems (f (chars.foldr Token.prepend tokens))
        = (boundOfItems (f tokens)).map (chars ++ ·) := by
  induction chars with
  | nil =>
      refine ⟨rfl, ?_⟩
      change boundOfItems (f tokens) = _
      cases boundOfItems (f tokens) <;> rfl
  | cons c chars ih =>
      obtain ⟨sameSimple, sameBound⟩ := h.prepend c (chars.foldr Token.prepend tokens)
      refine ⟨sameSimple.trans ih.1, sameBound.trans ?_⟩
      rw [ih.2]
      cases boundOfItems (f tokens) <;> rfl

/-- The first item that varies settles the bound of all. -/
structure Settles (items : List Pattern) (bound : List Char) : Prop where
  varies : allSimple items = false
  bound : boundOfItems items = .ok bound

theorem settles_cons {item : Pattern} {bound : List Char} (varies : item.isSimple = false)
    (h : item.lowerBound = .ok bound) (items : List Pattern)
    : Settles (item :: items) bound where
  varies := by rw [allSimple, varies, Bool.false_and]
  bound := by
    rw [boundOfItems, h, varies]
    rfl

/-- Characters in front of items that settle a bound are a part of it. -/
theorem Itemizes.settles_foldr_prepend (h : sp.Itemizes f) {tokens : List Token}
    {bound : List Char} (settled : Settles (f tokens) bound) (chars : List Char)
    : Settles (f (chars.foldr Token.prepend tokens)) (chars ++ bound) := by
  obtain ⟨sameSimple, sameBound⟩ := h.foldr_prepend chars tokens
  refine ⟨sameSimple.trans settled.varies, sameBound.trans ?_⟩
  rw [settled.bound]
  rfl

/-- Items settle a beginning of a bound, and all of it if the language spells everything out. -/
def SettlesWithin (items : List Pattern) (bound : List Char) (spelled : Prop) : Prop :=
  ∃ found, Settles items found ∧ found <+: bound ∧ (spelled → found = bound)

theorem Settles.within {items : List Pattern} {bound : List Char} (h : Settles items bound)
    (spelled : Prop)
    : SettlesWithin items bound spelled :=
  ⟨bound, h, List.prefix_rfl, fun _ => rfl⟩

theorem SettlesWithin.mono {items : List Pattern} {bound : List Char} {spelled more : Prop}
    (h : SettlesWithin items bound spelled) (weaker : more → spelled)
    : SettlesWithin items bound more := by
  obtain ⟨found, settled, begins, same⟩ := h
  exact ⟨found, settled, begins, fun all => same (weaker all)⟩

/-- Copies of a simple pattern are the characters of its repeated bound, by induction on their
number. -/
theorem repeat_tokens_of_isSimple {body : Pattern} (simple : body.isSimple) {bound : List Char}
    (h : body.lowerBound = .ok bound) (count : Nat) (rest : List Token)
    : Nat.repeat (tokens sp body) count rest
      = (Text.repeated count bound).foldr Token.prepend rest := by
  rw [Text.repeated_eq_flatten]
  induction count with
  | zero => rfl
  | succ count ih =>
      rw [Nat.repeat, ih, tokens_of_isSimple sp simple h, List.replicate_succ,
        List.flatten_cons, List.foldr_append]

mutual

/-- A pattern that varies settles its bound when it is read back, by induction on the pattern. -/
theorem Itemizes.settles_tokens (h : sp.Itemizes f) (p : Pattern) (varies : p.isSimple = false)
    {bound : List Char} (hbound : p.lowerBound = .ok bound) (rest : List Token)
    : SettlesWithin (f (tokens sp p rest)) bound
        (sp.brackets.isSome ∨ p.everyNode isNotChoice) := by
  cases p with
  | empty | literal => exact absurd varies nofun
  | anyChar =>
      cases hbound
      rw [tokens, h.anyChar]
      exact (settles_cons rfl rfl (f rest)).within _
  | oneOf candidates =>
      cases hbound
      rw [tokens]
      cases hbrackets : sp.brackets with
      | some brackets =>
          dsimp only
          rw [h.choice brackets.1 brackets.2 hbrackets]
          exact (settles_cons rfl rfl (f rest)).within _
      | none =>
          -- the choice comes back as any character, which adds nothing to a bound
          dsimp only
          rw [h.anyChar]
          refine ⟨[], settles_cons rfl rfl (f rest), List.nil_prefix, ?_⟩
          intro spelled
          simp [Pattern.everyNode, isNotChoice] at spelled
  | group items =>
      refine (h.settles_tokensAll items varies hbound rest).mono (Or.imp_right ?_)
      intro noChoice
      exact (Bool.and_eq_true_iff.mp noChoice).2
  | atLeast body count =>
      change SettlesWithin (f (Nat.repeat (tokens sp body) count (.operator sp.anyString :: rest)))
        bound _
      -- the operator behind the copies varies, so whatever follows it has no say
      have behind : Settles (f (.operator sp.anyString :: rest)) [] := by
        rw [h.anyString]
        exact settles_cons rfl rfl (f rest)
      cases simple : body.isSimple with
      | true =>
          obtain ⟨once, honce, rfl⟩ := Pattern.exists_of_lowerBound_atLeast simple hbound
          have settled := h.settles_foldr_prepend behind (Text.repeated count once)
          rw [List.append_nil] at settled
          rw [repeat_tokens_of_isSimple simple honce]
          exact settled.within _
      | false =>
          rw [Pattern.lowerBound_atLeast_of_varies simple] at hbound
          cases count with
          | zero =>
              cases hbound
              exact behind.within _
          | succ count =>
              refine (h.settles_tokens body simple hbound _).mono (Or.imp_right ?_)
              intro noChoice
              exact (Bool.and_eq_true_iff.mp noChoice).2

theorem Itemizes.settles_tokensAll (h : sp.Itemizes f) (items : List Pattern)
    (varies : allSimple items = false) {bound : List Char}
    (hbound : boundOfItems items = .ok bound) (rest : List Token)
    : SettlesWithin (f (tokensAll sp items rest)) bound
        (sp.brackets.isSome ∨ everyNodeOfAll isNotChoice items) := by
  cases items with
  | nil => exact absurd varies nofun
  | cons item items =>
      rw [tokensAll]
      cases simple : item.isSimple with
      | true =>
          rw [allSimple, simple, Bool.true_and] at varies
          obtain ⟨first, others, hfirst, hothers, rfl⟩ :=
            Pattern.exists_of_boundOfItems_cons simple hbound
          obtain ⟨found, settled, begins, same⟩ := h.settles_tokensAll items varies hothers rest
          rw [tokens_of_isSimple sp simple hfirst]
          refine ⟨first ++ found, h.settles_foldr_prepend settled first,
            (List.prefix_append_right_inj first).mpr begins, ?_⟩
          intro spelled
          rw [same (spelled.imp_right fun noChoice => (Bool.and_eq_true_iff.mp noChoice).2)]
      | false =>
          have alone := Pattern.lowerBound_of_boundOfItems_cons simple hbound
          refine (h.settles_tokens item simple alone _).mono (Or.imp_right ?_)
          intro noChoice
          exact (Bool.and_eq_true_iff.mp noChoice).1

end

/-- The items of a pattern that is read back are simple if the pattern is, and their bound is a
beginning of the bound of the pattern. It is all of it if the language spells everything out. -/
theorem Itemizes.bound_tokens (h : sp.Itemizes f) {p : Pattern} {bound : List Char}
    (hbound : p.lowerBound = .ok bound)
    : allSimple (f (tokens sp p [])) = p.isSimple
      ∧ ∃ found, boundOfItems (f (tokens sp p [])) = .ok found ∧ found <+: bound
        ∧ (sp.brackets.isSome ∨ p.everyNode isNotChoice → found = bound) := by
  cases simple : p.isSimple with
  | true =>
      obtain ⟨sameSimple, sameBound⟩ := h.foldr_prepend bound []
      rw [h.done] at sameSimple sameBound
      rw [tokens_of_isSimple sp simple hbound]
      refine ⟨sameSimple, bound, sameBound.trans ?_, List.prefix_rfl, fun _ => rfl⟩
      exact congrArg Except.ok (List.append_nil bound)
  | false =>
      obtain ⟨found, settled, begins, same⟩ := h.settles_tokens p simple hbound []
      exact ⟨settled.varies, found, settled.bound, begins, same⟩

end Spelling

namespace Pattern

/-- A pattern that can be written in a wildcard language has a lower bound. What is read back with
the same escape is simple if the pattern is. From a wildcard it has the same bound, and from an
SQL92 expression a beginning of it, which is all of it if the pattern is free of choices. -/
theorem rendering_keeps_bound (p : Pattern) (escape : Char) (extra : List Char)
    : (escape ∉ ['*', '?', '[', ']'] →
        ∀ source, p.render (Unix.spelling.renderer escape extra) = .ok source →
          ∃ bound, p.lowerBound = .ok bound
            ∧ (Unix.parse (Unix.alphabet (some escape)) source).lowerBound = .ok bound
            ∧ (Unix.parse (Unix.alphabet (some escape)) source).isSimple = p.isSimple)
      ∧ (escape ∉ ['%', '_'] →
          ∀ source, p.render (Sql92.spelling.renderer escape extra) = .ok source →
            ∃ bound q found, p.lowerBound = .ok bound
              ∧ Sql92.parse (some escape) source = .ok q ∧ q.lowerBound = .ok found
              ∧ q.isSimple = p.isSimple ∧ found <+: bound
              ∧ (p.everyNode isNotChoice → found = bound)) := by
  have bounded {sp : Spelling} {source : List Char}
      (rendered : p.render (sp.renderer escape extra) = .ok source)
      : ∃ bound, p.lowerBound = .ok bound := by
    rw [Spelling.render_eq_written] at rendered
    exact Spelling.exists_lowerBound_of_written p rendered
  refine ⟨?_, ?_⟩
  · intro hescape source rendered
    obtain ⟨bound, hbound⟩ := bounded rendered
    obtain ⟨sameSimple, found, hfound, -, same⟩ := Unix.itemizes.bound_tokens hbound
    rw [← (Unix.readBy_alphabet hescape extra).tokenize_render rendered] at sameSimple hfound
    cases same (.inl rfl)
    exact ⟨bound, hbound, (lowerBound_ofItems _).trans hfound,
      (isSimple_ofItems _).trans sameSimple⟩
  · intro hescape source rendered
    obtain ⟨bound, hbound⟩ := bounded rendered
    obtain ⟨sameSimple, found, hfound, begins, same⟩ := Sql92.itemizes.bound_tokens hbound
    rw [← (Sql92.readBy_alphabet hescape extra).tokenize_render rendered] at sameSimple hfound
    exact ⟨bound, _, found, hbound, Sql92.parse_eq_ok (some escape) source,
      (lowerBound_ofItems _).trans hfound, (isSimple_ofItems _).trans sameSimple, begins,
      fun noChoice => same (.inr noChoice)⟩

/-- A fixed text before a repetition that ends in a choice, with an extra character in it. -/
theorem rendering_keeps_bound_repeated_choice
    : let p : Pattern := .group
        [.literal ['*'], .atLeast (.group [.literal ['a'], .oneOf ['z', 'b']]) 2, .anyChar]
      let wildcard : List Char := ['"', '*', '"', 'a', '[', 'z', 'b', ']', '"', 'a', '[', 'z', 'b',
        ']', '*', '?']
      let expression : List Char := ['*', '"', 'a', '_', '"', 'a', '_', '%', '_']
      p.render (Unix.spelling.renderer '"' ['a']) = .ok wildcard
        ∧ p.render (Sql92.spelling.renderer '"' ['a']) = .ok expression
        ∧ (Unix.parse (Unix.alphabet (some '"')) wildcard).lowerBound = .ok ['*', 'a', 'b']
        ∧ (Unix.parse (Unix.alphabet (some '"')) wildcard).isSimple = false
        ∧ ∃ q found, Sql92.parse (some '"') expression = .ok q ∧ q.lowerBound = .ok found
          ∧ q.isSimple = false ∧ found <+: ['*', 'a', 'b'] := by
  intro p wildcard expression
  have asWildcard : p.render (Unix.spelling.renderer '"' ['a']) = .ok wildcard := rfl
  have asExpression : p.render (Sql92.spelling.renderer '"' ['a']) = .ok expression := rfl
  have hbound : p.lowerBound = .ok ['*', 'a', 'b'] := rfl
  obtain ⟨inWildcard, inExpression⟩ := rendering_keeps_bound p '"' ['a']
  obtain ⟨bound, whole, sameBound, sameSimple⟩ := inWildcard (by decide) wildcard asWildcard
  cases hbound.symm.trans whole
  obtain ⟨bound, q, found, whole, parsed, hfound, simple, begins, -⟩ :=
    inExpression (by decide) expression asExpression
  cases hbound.symm.trans whole
  exact ⟨asWildcard, asExpression, sameBound, sameSimple, q, found, parsed, hfound, simple, begins⟩

end Pattern

end Wildcard
