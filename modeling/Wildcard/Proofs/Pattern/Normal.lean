import Mathlib.Data.List.Chain
import Wildcard.Pattern

/-! Normal patterns.
A normal pattern is a row of items that stands for itself: no item is empty or nested, and no two
literals could be one. It is a group only if it has several items, so a row of items makes one
normal pattern, and every normal pattern is made of one row. A reader that knows quotations may also
come upon an empty literal, so what it reads is only flat.
-/

namespace Wildcard.Pattern

/-- What stands in a row of items. -/
inductive IsItem : Pattern → Prop where
  | anyChar : IsItem .anyChar
  | anyString : IsItem .anyString
  | literal {text : List Char} (nonempty : text ≠ []) : IsItem (.literal text)
  | oneOf (candidates : List Char) : IsItem (.oneOf candidates)

/-- What a reader can make of the tokens at the front. -/
inductive IsFlat : Pattern → Prop where
  | anyChar : IsFlat .anyChar
  | anyString : IsFlat .anyString
  | literal (text : List Char) : IsFlat (.literal text)
  | oneOf (candidates : List Char) : IsFlat (.oneOf candidates)

theorem IsItem.isFlat {item : Pattern} (h : item.IsItem)
    : item.IsFlat := by
  cases h with
  | anyChar => exact .anyChar
  | anyString => exact .anyString
  | literal => exact .literal _
  | oneOf candidates => exact .oneOf candidates

def isLiteral : Pattern → Bool
  | .literal _ => true
  | _ => false

/-- Items in a row, of which no two literals are neighbours. -/
structure NormalItems (items : List Pattern) : Prop where
  areItems : ∀ item ∈ items, item.IsItem
  apart : items.IsChain fun first next => first.isLiteral → ¬ next.isLiteral

inductive IsNormal : Pattern → Prop where
  | empty : IsNormal .empty
  | item {p : Pattern} (isItem : p.IsItem) : IsNormal p
  | group {items : List Pattern} (several : 2 ≤ items.length) (normal : NormalItems items)
      : IsNormal (.group items)

theorem NormalItems.nil
    : NormalItems [] where
  areItems := nofun
  apart := .nil

theorem NormalItems.cons {item : Pattern} {items : List Pattern} (h : NormalItems items)
    (isItem : item.IsItem)
    (apart : item.isLiteral → ∀ next ∈ items.head?, ¬ next.isLiteral)
    : NormalItems (item :: items) where
  areItems := List.forall_mem_cons.mpr ⟨isItem, h.areItems⟩
  apart := List.isChain_cons.mpr ⟨fun next member isLiteral => apart isLiteral next member, h.apart⟩

theorem NormalItems.tail {item : Pattern} {items : List Pattern} (h : NormalItems (item :: items))
    : NormalItems items where
  areItems := (List.forall_mem_cons.mp h.areItems).2
  apart := h.apart.tail

/-- A row of items makes a normal pattern. -/
theorem isNormal_ofItems {items : List Pattern} (h : NormalItems items)
    : (ofItems items).IsNormal := by
  match items with
  | [] => exact .empty
  | [item] => exact .item (h.areItems item List.mem_cons_self)
  | _ :: _ :: _ => exact .group (by simp) h

/-- A normal pattern is made of a row of items. -/
theorem IsNormal.exists_ofItems {p : Pattern} (h : p.IsNormal)
    : ∃ items, NormalItems items ∧ p = ofItems items := by
  cases h with
  | empty => exact ⟨[], .nil, rfl⟩
  | item isItem => exact ⟨[p], NormalItems.nil.cons isItem fun _ => nofun, rfl⟩
  | @group items several normal =>
      match items with
      | [] | [_] => exact absurd several (by simp)
      | _ :: _ :: _ => exact ⟨_, normal, rfl⟩

end Wildcard.Pattern
