import Wildcard.Proofs.Render.Coverage
import Wildcard.Proofs.Sql92.Items
import Wildcard.Proofs.Unix.Items

/-! Normal patterns are read back as they were written.
What is read from a text is normal, from a wildcard at least if it has no quotations, so it comes
back from any text that is written for it.
-/

namespace Wildcard

/-- Written as a wildcard and read with the same escape, the pattern comes back. -/
def Unix.ReadsBack (p : Pattern) : Prop :=
  ∀ escape ∉ ['*', '?', '[', ']'], ∀ extra, ∃ source,
    p.render (spelling.renderer escape extra) = .ok source
      ∧ parse (alphabet (some escape)) source = p

/-- Written as an expression and read with the same escape, the pattern comes back. -/
def Sql92.ReadsBack (p : Pattern) : Prop :=
  ∀ escape ∉ ['%', '_'], ∀ extra, ∃ source,
    p.render (spelling.renderer escape extra) = .ok source ∧ parse (some escape) source = .ok p

theorem Unix.readsBack_of_isNormal {p : Pattern} (h : p.IsNormal)
    : ReadsBack p := by
  intro escape hescape extra
  obtain ⟨items, normal, rfl⟩ := h.exists_ofItems
  obtain ⟨source, rendered, read⟩ :=
    itemizes.exists_render (readBy_alphabet hescape extra) normal (.inl rfl)
  exact ⟨source, rendered, congrArg Pattern.ofItems read⟩

theorem Sql92.readsBack_of_isNormal {p : Pattern} (h : p.IsNormal)
    (noChoice : p.everyNode Pattern.isNotChoice)
    : ReadsBack p := by
  intro escape hescape extra
  obtain ⟨items, normal, rfl⟩ := h.exists_ofItems
  obtain ⟨source, rendered, read⟩ := itemizes.exists_render (readBy_alphabet hescape extra) normal
    (.inr ((Pattern.everyNode_isNotChoice_ofItems normal.areItems).mp noChoice))
  refine ⟨source, rendered, ?_⟩
  rw [parse_eq_ok]
  exact congrArg Except.ok (congrArg Pattern.ofItems read)

/-- What is read from a wildcard without quotations is normal. -/
theorem Unix.isNormal_parse {escape : Option Char} {source : List Char}
    (noQuote : .operator '"' ∉ (alphabet escape).tokenize source)
    : (parse (alphabet escape) source).IsNormal :=
  Pattern.isNormal_ofItems (normalItems_items (Alphabet.inRuns_tokenize _ source) noQuote)

/-- What is read from an expression is normal and free of choices. -/
theorem Sql92.exists_isNormal_parse (escape : Option Char) (source : List Char)
    : ∃ p, parse escape source = .ok p ∧ p.IsNormal ∧ p.everyNode Pattern.isNotChoice := by
  have normal := normalItems_items (Alphabet.inRuns_tokenize (alphabet escape) source)
  exact ⟨_, parse_eq_ok escape source, Pattern.isNormal_ofItems normal,
    (Pattern.everyNode_isNotChoice_ofItems normal.areItems).mpr isNotChoice_of_mem_items⟩

namespace Pattern

/-- A normal pattern comes back from its wildcard, and from its SQL92 expression if it is free of
choices. Reading gives normal patterns only, always from an SQL92 expression and from a wildcard
without quotations, and so what is read comes back in turn: an SQL92 expression may even go by way
of a wildcard. -/
theorem normal_patterns_read_back
    : (∀ p : Pattern, p.IsNormal →
        Unix.ReadsBack p ∧ (p.everyNode isNotChoice → Sql92.ReadsBack p))
      ∧ (∀ escape source, ∃ p, Sql92.parse escape source = .ok p
          ∧ p.IsNormal ∧ p.everyNode isNotChoice ∧ Sql92.ReadsBack p ∧ Unix.ReadsBack p)
      ∧ ∀ escape source, Token.operator '"' ∉ (Unix.alphabet escape).tokenize source →
          (Unix.parse (Unix.alphabet escape) source).IsNormal
            ∧ Unix.ReadsBack (Unix.parse (Unix.alphabet escape) source) := by
  refine ⟨?_, ?_, ?_⟩
  · intro p normal
    exact ⟨Unix.readsBack_of_isNormal normal, Sql92.readsBack_of_isNormal normal⟩
  · intro escape source
    obtain ⟨p, parsed, normal, noChoice⟩ := Sql92.exists_isNormal_parse escape source
    exact ⟨p, parsed, normal, noChoice, Sql92.readsBack_of_isNormal normal noChoice,
      Unix.readsBack_of_isNormal normal⟩
  · intro escape source noQuote
    have normal := Unix.isNormal_parse noQuote
    exact ⟨normal, Unix.readsBack_of_isNormal normal⟩

/-- Operators inside a literal and a class, an extra character, and a quotation mark as the escape
of the wildcard. -/
theorem normal_patterns_read_back_operators
    : let p : Pattern := .group [.literal ['*', '%', 'a'], .anyString, .oneOf [']', '"']]
      let q : Pattern := .group [.literal ['*', '%', 'a'], .anyString, .anyChar]
      p.IsNormal ∧ q.IsNormal ∧ q.everyNode isNotChoice
        ∧ (∃ source, p.render (Unix.spelling.renderer '"' ['a']) = .ok source
          ∧ Unix.parse (Unix.alphabet (some '"')) source = p)
        ∧ (∃ source, q.render (Sql92.spelling.renderer '*' ['a']) = .ok source
          ∧ Sql92.parse (some '*') source = .ok q)
        ∧ Token.operator '"' ∉ (Unix.alphabet (some '\\')).tokenize ['a', '\\', '"', '[', 'b']
        ∧ (Unix.parse (Unix.alphabet (some '\\')) ['a', '\\', '"', '[', 'b']).IsNormal := by
  intro p q
  have literal : IsItem (.literal ['*', '%', 'a']) := .literal (by simp)
  have normalP : p.IsNormal :=
    .group (by simp) (((NormalItems.nil.cons (.oneOf _) nofun).cons .anyString nofun).cons literal
      fun _ next member => by cases Option.mem_some.mp member; nofun)
  have normalQ : q.IsNormal :=
    .group (by simp) (((NormalItems.nil.cons .anyChar nofun).cons .anyString nofun).cons literal
      fun _ next member => by cases Option.mem_some.mp member; nofun)
  have noQuote : Token.operator '"'
      ∉ (Unix.alphabet (some '\\')).tokenize ['a', '\\', '"', '[', 'b'] := by decide
  obtain ⟨written, -, read⟩ := normal_patterns_read_back
  exact ⟨normalP, normalQ, rfl, (written p normalP).1 '"' (by decide) ['a'],
    (written q normalQ).2 rfl '*' (by decide) ['a'], noQuote, (read _ _ noQuote).1⟩

end Pattern

end Wildcard
