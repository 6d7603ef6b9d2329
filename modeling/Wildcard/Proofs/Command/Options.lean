import Wildcard.Command.Options

/-! What the arguments of the command say, item by item.
Arguments are cut into options with their values and positional arguments. Taking the arguments one
by one comes to putting one item after the other into the options, up to the first faulty item, so
that of all items on one matter the last one counts. Items on different matters may change places.
-/

namespace Wildcard.Options

-----------------------------------------------------------------------------------------
-- Items
-----------------------------------------------------------------------------------------

/-- The words for an option. -/
def Flag.words : Flag → List String
  | .sql92 => ["-s", "--sql92"]
  | .noEscape => ["--no-escape"]
  | .escape => ["-e", "--escape"]
  | .target => ["-t", "--to"]

theorem Flag.ofArgument?_eq_some_iff {word : String} {flag : Flag}
    : Flag.ofArgument? word = some flag ↔ word ∈ flag.words := by
  unfold Flag.ofArgument?
  split <;> cases flag <;> simp_all [Flag.words]

/-- The values that the option for a target takes. -/
def targetNames : List String := ["unix", "sql92", "regex", "simple"]

/-- An option or a positional argument, with the argument behind it that is its value. -/
structure Item where
  word : String
  value : Option String
  deriving DecidableEq

/-- Whether the argument behind a word is its value. -/
def takesValue (word : String) : Bool :=
  match Flag.ofArgument? word with
  | some .escape | some .target => true
  | _ => false

/-- Arguments, cut into items from left to right. A value is taken whatever it looks like, and only
the last item can lack one. -/
def cut : List String → List Item
  | [] => []
  | word :: rest =>
      if takesValue word then
        match rest with
        | [] => [⟨word, none⟩]
        | value :: rest => ⟨word, some value⟩ :: cut rest
      else ⟨word, none⟩ :: cut rest

namespace Item

/-- The arguments that make up an item. -/
def arguments (item : Item) : List String := item.word :: item.value.toList

/-- The option that an item is; a positional argument is none. -/
def flag? (item : Item) : Option Flag := Flag.ofArgument? item.word

def isSql92 (item : Item) : Bool := item.flag? matches some .sql92

/-- Whether an item is on the escape. -/
def isEscape (item : Item) : Bool := item.flag? matches some .escape | some .noEscape

def isTarget (item : Item) : Bool := item.flag? matches some .target

def isPositional (item : Item) : Bool := item.flag? matches none

/-- What an item on the escape makes it: a character, or none. -/
def escape? (item : Item) : Option (Option Char) :=
  match item.flag?, item.value with
  | some .noEscape, _ => some none
  | some .escape, some value => some value.toList.head?
  | _, _ => none

/-- What an item on the target makes it: the dialect of its name. -/
def target? (item : Item) : Option (Option Dialect) :=
  match item.flag?, item.value with
  | some .target, some value => some (Dialect.all.find? fun dialect => dialect.name == value)
  | _, _ => none

/-- The pattern that an item is. -/
def pattern? (item : Item) : Option (List Char) :=
  match item.flag? with
  | none => some item.word.toList
  | some _ => none

/-- What is wrong with an option: its value is missing, or is none that it takes. -/
def fault? (item : Item) : Option UsageError :=
  match item.flag?, item.value with
  | some .escape, none => some .missingEscape
  | some .escape, some value =>
      if value.toList.length = 1 then none else some (.escapeNotSingle value)
  | some .target, none => some .missingTarget
  | some .target, some value =>
      if value ∈ targetNames then none else some (.unknownDialect value)
  | _, _ => none

end Item

/-- The fault of the first item that has one. A positional argument is a fault if there is a pattern
already. -/
def firstFault? : Bool → List Item → Option UsageError
  | _, [] => none
  | hasPattern, item :: items =>
      if hasPattern && item.isPositional then some (.unexpectedArgument item.word)
      else item.fault?.or (firstFault? (hasPattern || item.isPositional) items)

/-- Items without a fault, and the options that they give. Of the items on the escape and of those
on the target the last one counts. -/
structure Give (items : List Item) (options : Options) : Prop where
  valued : ∀ item ∈ items, takesValue item.word → item.value.isSome
  single : ∀ item ∈ items, item.flag? = some .escape →
    ∀ value ∈ item.value, value.toList.length = 1
  named : ∀ item ∈ items, item.flag? = some .target →
    ∀ value ∈ item.value, value ∈ targetNames
  pattern : items.filterMap Item.pattern? = [options.pattern]
  dialect : options.dialect = if items.any Item.isSql92 then .sql92 else .unix
  escape : options.escape = (items.filterMap Item.escape?).getLast?.getD (some '\\')
  target : options.target = (items.filterMap Item.target?).getLast?.getD none

variable {item : Item} {items others : List Item} {draft : Draft} {arguments : List String}
  {options : Options} {fault : UsageError}

-----------------------------------------------------------------------------------------
-- Cutting arguments
-----------------------------------------------------------------------------------------

@[simp]
theorem cut_alone {word : String} (alone : takesValue word = false) (rest : List String)
    : cut (word :: rest) = ⟨word, none⟩ :: cut rest := by
  rw [cut.eq_def]
  simp [alone]

@[simp]
theorem cut_valued {word : String} (takes : takesValue word = true) (value : String)
    (rest : List String)
    : cut (word :: value :: rest) = ⟨word, some value⟩ :: cut rest := by
  simp [cut, takes]

@[simp]
theorem cut_missing {word : String} (takes : takesValue word = true)
    : cut [word] = [⟨word, none⟩] := by
  simp [cut, takes]

/-- Cutting loses no argument, by induction on the items. -/
@[simp]
theorem flatMap_arguments_cut (arguments : List String)
    : (cut arguments).flatMap Item.arguments = arguments := by
  fun_induction cut arguments with
  | case1 | case2 => rfl
  | case3 word _ value rest ih => simp [Item.arguments, ih]
  | case4 word rest _ ih => simp [Item.arguments, ih]

/-- Only an option that needs a value has one, by induction on the items. -/
theorem takesValue_of_mem_cut (h : item ∈ cut arguments) (hvalue : item.value.isSome)
    : takesValue item.word := by
  fun_induction cut arguments with
  | case1 => exact absurd h List.not_mem_nil
  | case2 word takes =>
      obtain rfl := List.mem_singleton.mp h
      exact takes
  | case3 word takes value rest ih =>
      obtain rfl | h := List.mem_cons.mp h
      · exact takes
      · exact ih h
  | case4 word rest _ ih =>
      obtain rfl | h := List.mem_cons.mp h
      · exact absurd hvalue nofun
      · exact ih h

/-- Items with a value where one is needed, and nowhere else, are cut from their arguments again, by
induction on them. -/
theorem cut_flatMap_arguments (h : ∀ item ∈ items, item.value.isSome = takesValue item.word)
    : cut (items.flatMap Item.arguments) = items := by
  induction items with
  | nil => rfl
  | cons item items ih =>
      obtain ⟨word, value⟩ := item
      have same := h _ List.mem_cons_self
      have others := ih fun item member => h item (List.mem_cons_of_mem _ member)
      cases value with
      | none =>
          simpa [Item.arguments, same.symm] using others
      | some value =>
          simpa [Item.arguments, same.symm] using others

-----------------------------------------------------------------------------------------
-- Putting items into a draft
-----------------------------------------------------------------------------------------

/-- A draft after one more item. -/
def Draft.put (draft : Draft) (item : Item) : Draft where
  dialect := if item.isSql92 then .sql92 else draft.dialect
  escape := item.escape?.getD draft.escape
  target := item.target?.getD draft.target
  pattern := draft.pattern.or item.pattern?

/-- What comes of putting items into a draft, up to the first fault. -/
def putAll? (draft : Draft) (items : List Item) : Except Error Draft :=
  match firstFault? draft.pattern.isSome items with
  | some fault => .error (.usage fault)
  | none => .ok (items.foldl Draft.put draft)

/-- What an item changes in a draft. -/
theorem put_eq (draft : Draft) (item : Item)
    : draft.put item = match item.flag?, item.value with
        | some .sql92, _ => { draft with dialect := .sql92 }
        | some .noEscape, _ => { draft with escape := none }
        | some .escape, some value => { draft with escape := value.toList.head? }
        | some .target, some value =>
            { draft with target := Dialect.all.find? fun dialect => dialect.name == value }
        | none, _ => { draft with pattern := draft.pattern.or (some item.word.toList) }
        | _, none => draft := by
  unfold Draft.put Item.isSql92 Item.escape? Item.target? Item.pattern?
  cases item.flag? with
  | none => simp
  | some flag => cases flag <;> cases item.value <;> simp

@[simp]
theorem isSome_pattern_put (draft : Draft) (item : Item)
    : (draft.put item).pattern.isSome = (draft.pattern.isSome || item.isPositional) := by
  cases hitem : item.flag? <;> simp [Draft.put, Item.pattern?, Item.isPositional, hitem]

theorem putAll?_cons_of_fault? (h : item.fault? = some fault) (option : item.isPositional = false)
    (items : List Item)
    : putAll? draft (item :: items) = .error (.usage fault) := by
  simp [putAll?, firstFault?, h, option]

theorem putAll?_cons_of_surplus (hasPattern : draft.pattern.isSome)
    (positional : item.isPositional) (items : List Item)
    : putAll? draft (item :: items) = .error (.usage (.unexpectedArgument item.word)) := by
  simp [putAll?, firstFault?, hasPattern, positional]

theorem putAll?_cons (h : item.fault? = none)
    (single : draft.pattern.isSome → item.isPositional = false) (items : List Item)
    : putAll? draft (item :: items) = putAll? (draft.put item) items := by
  have expected : (draft.pattern.isSome && item.isPositional) = false := by
    cases hpattern : draft.pattern.isSome with
    | false => rfl
    | true => exact single hpattern
  simp [putAll?, firstFault?, h, expected]

/-- A value that is a single character, or the fault that it is not. -/
theorem escapeOf?_eq (value : String)
    : (∃ c, value.toList = [c] ∧ escapeOf? value = .ok c)
      ∨ value.toList.length ≠ 1 ∧ escapeOf? value = .error (.usage (.escapeNotSingle value)) := by
  unfold escapeOf?
  split
  · next c hc => exact .inl ⟨c, hc, rfl⟩
  · next several =>
      refine .inr ⟨?_, rfl⟩
      intro single
      obtain ⟨c, hc⟩ := List.length_eq_one_iff.mp single
      exact several c hc

/-- A value that names a dialect, or the fault that it names none. -/
theorem ofName?_eq (value : String)
    : (∃ dialect, value ∈ targetNames
        ∧ Dialect.all.find? (fun dialect => dialect.name == value) = some dialect
        ∧ Dialect.ofName? value = .ok dialect)
      ∨ value ∉ targetNames
        ∧ Dialect.ofName? value = .error (.usage (.unknownDialect value)) := by
  have named : (Dialect.all.find? fun dialect => dialect.name == value).isSome
      ↔ value ∈ targetNames := by
    simp [targetNames, Dialect.all, Dialect.name, List.find?_isSome, @eq_comm _ value]
  unfold Dialect.ofName?
  cases hfind : Dialect.all.find? fun dialect => dialect.name == value with
  | none =>
      rw [hfind] at named
      exact .inr ⟨fun member => absurd (named.mpr member) nofun, rfl⟩
  | some dialect =>
      rw [hfind] at named
      exact .inl ⟨dialect, named.mp rfl, rfl, rfl⟩

section

-- an item is told by the option that its word is
attribute [local simp] takesValue Item.flag? Item.fault? Item.isPositional put_eq

/-- Reading arguments puts their items into a draft, by induction on the arguments. -/
theorem readArguments_eq_putAll? (draft : Draft) (arguments : List String)
    : readArguments draft arguments = putAll? draft (cut arguments) := by
  fun_induction readArguments draft arguments with
  | case1 draft => rfl
  | case2 draft word rest flag ih | case3 draft word rest flag ih =>
      rw [ih, cut_alone (by simp [flag]), putAll?_cons]
      · simp [flag]
      · simp [flag]
      · simp [flag]
  | case4 draft word flag | case6 draft word flag =>
      rw [cut_missing (by simp [flag]), putAll?_cons_of_fault?]
      · simp [flag]
      · simp [flag]
  | case5 draft word value rest flag ih =>
      rw [cut_valued (by simp [flag])]
      obtain ⟨c, hc, single⟩ | ⟨several, notSingle⟩ := escapeOf?_eq value
      · rw [single, putAll?_cons]
        · simp [bind, Except.bind, ih, flag, hc]
        · simp [flag, hc]
        · simp [flag]
      · rw [notSingle, putAll?_cons_of_fault?]
        · rfl
        · simp [flag, several]
        · simp [flag]
  | case7 draft word value rest flag ih =>
      rw [cut_valued (by simp [flag])]
      obtain ⟨dialect, known, hfind, named⟩ | ⟨unknown, notNamed⟩ := ofName?_eq value
      · rw [named, putAll?_cons]
        · simp [bind, Except.bind, ih, flag, hfind]
        · simp [flag, known]
        · simp [flag]
      · rw [notNamed, putAll?_cons_of_fault?]
        · rfl
        · simp [flag, unknown]
        · simp [flag]
  | case8 draft word rest flag noPattern ih =>
      rw [ih, cut_alone (by simp [flag]), putAll?_cons]
      · simp [flag, noPattern]
      · simp [flag]
      · simp [noPattern]
  | case9 draft word rest flag pattern hasPattern =>
      rw [cut_alone (by simp [flag]), putAll?_cons_of_surplus]
      · simp [hasPattern]
      · simp [flag]

end

/-- The last item on a matter counts, by induction on the items. -/
theorem foldl_put_eq_getLast? {α : Type} (field : Draft → α) (write : Item → Option α)
    (hput : ∀ draft item, field (draft.put item) = (write item).getD (field draft)) (draft : Draft)
    (items : List Item)
    : field (items.foldl Draft.put draft)
      = (items.filterMap write).getLast?.getD (field draft) := by
  induction items generalizing draft with
  | nil => rfl
  | cons item items ih =>
      rw [List.foldl_cons, ih, hput]
      cases hitem : write item with
      | none => simp [hitem]
      | some value => simp [hitem, List.getLast?_cons]

@[simp]
theorem dialect_foldl_put (draft : Draft) (items : List Item)
    : (items.foldl Draft.put draft).dialect
      = if items.any Item.isSql92 then .sql92 else draft.dialect := by
  induction items generalizing draft with
  | nil => rfl
  | cons item items ih =>
      rw [List.foldl_cons, ih, List.any_cons]
      cases hitem : item.isSql92 <;> simp [Draft.put, hitem]

/-- The first pattern is kept, by induction on the items. -/
@[simp]
theorem pattern_foldl_put (draft : Draft) (items : List Item)
    : (items.foldl Draft.put draft).pattern
      = draft.pattern.or (items.filterMap Item.pattern?).head? := by
  induction items generalizing draft with
  | nil => simp
  | cons item items ih =>
      rw [List.foldl_cons, ih]
      cases hitem : item.pattern? <;> simp [Draft.put, hitem]

-----------------------------------------------------------------------------------------
-- Items without a fault
-----------------------------------------------------------------------------------------

theorem isPositional_eq_isSome (item : Item)
    : item.isPositional = item.pattern?.isSome := by
  unfold Item.isPositional Item.pattern?
  cases item.flag? <;> rfl

/-- No item is at fault when none is on its own and there is at most one pattern, by induction on
the items. -/
theorem firstFault?_eq_none_iff (hasPattern : Bool) (items : List Item)
    : firstFault? hasPattern items = none
      ↔ (∀ item ∈ items, item.fault? = none)
        ∧ (items.filterMap Item.pattern?).length + hasPattern.toNat ≤ 1 := by
  induction items generalizing hasPattern with
  | nil => cases hasPattern <;> simp [firstFault?]
  | cons item items ih =>
      rw [firstFault?, isPositional_eq_isSome, List.forall_mem_cons]
      cases hpattern : item.pattern? with
      | none => simp [ih, hpattern, and_assoc]
      | some pattern => cases hasPattern <;> simp [ih, hpattern, and_assoc]

/-- What is asked of an option. -/
theorem fault?_eq_none_iff (item : Item)
    : item.fault? = none
      ↔ (takesValue item.word → item.value.isSome)
        ∧ (item.flag? = some .escape → ∀ value ∈ item.value, value.toList.length = 1)
        ∧ (item.flag? = some .target →
          ∀ value ∈ item.value, value ∈ targetNames) := by
  unfold Item.fault? takesValue Item.flag?
  cases Flag.ofArgument? item.word with
  | none => simp
  | some flag => cases flag <;> cases item.value <;> simp

/-- What the arguments come to, by their items. -/
theorem parse?_eq (arguments : List String)
    : parse? arguments = match firstFault? false (cut arguments),
          ((cut arguments).filterMap Item.pattern?).head? with
        | some fault, _ => .error (.usage fault)
        | none, none => .error (.usage .noPattern)
        | none, some pattern => .ok {
            dialect := if (cut arguments).any Item.isSql92 then .sql92 else .unix
            escape := ((cut arguments).filterMap Item.escape?).getLast?.getD (some '\\')
            target := ((cut arguments).filterMap Item.target?).getLast?.getD none
            pattern } := by
  let draft : Draft := ⟨.unix, some '\\', none, none⟩
  have escape :=
    foldl_put_eq_getLast? Draft.escape Item.escape? (fun _ _ => rfl) draft (cut arguments)
  have target :=
    foldl_put_eq_getLast? Draft.target Item.target? (fun _ _ => rfl) draft (cut arguments)
  have read : readArguments draft arguments = _ := readArguments_eq_putAll? draft arguments
  change (readArguments draft arguments >>= _) = _
  rw [read, putAll?, Option.isSome_none]
  cases firstFault? false (cut arguments) with
  | some fault => rfl
  | none =>
      dsimp only [bind, Except.bind]
      rw [escape, target]
      simp only [pattern_foldl_put, dialect_foldl_put]
      cases ((cut arguments).filterMap Item.pattern?).head? <;> rfl

/-- One pattern and no fault are what is asked of the items. -/
theorem Give.firstFault? (h : Give items options)
    : firstFault? false items = none := by
  refine (firstFault?_eq_none_iff false items).mpr ⟨?_, by simp [h.pattern]⟩
  intro item member
  exact (fault?_eq_none_iff item).mpr
    ⟨h.valued item member, h.single item member, h.named item member⟩

/-- Arguments are accepted when their items have no fault and one pattern. -/
theorem parse?_eq_ok_iff
    : parse? arguments = .ok options ↔ Give (cut arguments) options := by
  rw [parse?_eq]
  refine ⟨?_, ?_⟩
  · intro h
    split at h
    · exact absurd h nofun
    · exact absurd h nofun
    · next sound first =>
        cases h
        obtain ⟨own, single⟩ := (firstFault?_eq_none_iff false _).mp sound
        obtain ⟨rest, hrest⟩ := List.head?_eq_some_iff.mp first
        have noMore : rest = [] := by simpa [hrest] using single
        exact {
          valued := fun item member => ((fault?_eq_none_iff item).mp (own item member)).1
          single := fun item member => ((fault?_eq_none_iff item).mp (own item member)).2.1
          named := fun item member => ((fault?_eq_none_iff item).mp (own item member)).2.2
          pattern := by rw [hrest, noMore]
          dialect := rfl
          escape := rfl
          target := rfl }
  · intro h
    rw [h.firstFault?, h.pattern, List.head?_cons, ← h.dialect, ← h.escape, ← h.target]

/-- Arguments are refused for the first fault of their items, or else for want of a pattern. -/
theorem parse?_eq_error_iff {error : Error}
    : parse? arguments = .error error
      ↔ ∃ fault, error = .usage fault
        ∧ (firstFault? false (cut arguments) = some fault
          ∨ firstFault? false (cut arguments) = none
            ∧ (∀ item ∈ cut arguments, item.isPositional = false) ∧ fault = .noPattern) := by
  rw [parse?_eq]
  cases hfault : firstFault? false (cut arguments) with
  | some fault => simp [@eq_comm _ _ error]
  | none =>
      have noPattern : ((cut arguments).filterMap Item.pattern?).head? = none
          ↔ ∀ item ∈ cut arguments, item.isPositional = false := by
        simp [isPositional_eq_isSome]
      cases hpattern : ((cut arguments).filterMap Item.pattern?).head? with
      | none => simp [← noPattern, hpattern, @eq_comm _ _ error]
      | some pattern => simp [← noPattern, hpattern]

-----------------------------------------------------------------------------------------
-- The order of items
-----------------------------------------------------------------------------------------

theorem isEscape_of_escape? (h : item.escape? ≠ none)
    : item.isEscape = true := by
  unfold Item.escape? at h
  unfold Item.isEscape
  split at h <;> simp_all

theorem isTarget_of_target? (h : item.target? ≠ none)
    : item.isTarget = true := by
  unfold Item.target? at h
  unfold Item.isTarget
  split at h <;> simp_all

/-- What is read off from the items on one matter only does not depend on the others. -/
theorem filterMap_eq_of_filter_eq {α : Type} {read : Item → Option α} {concerns : Item → Bool}
    (h : ∀ item, read item ≠ none → concerns item = true)
    (same : others.filter concerns = items.filter concerns)
    : others.filterMap read = items.filterMap read := by
  have onlyThese (items : List Item)
      : (items.filter concerns).filterMap read = items.filterMap read := by
    rw [List.filterMap_filter]
    refine congrArg (items.filterMap ·) (funext fun item => ?_)
    split
    · rfl
    · next other => exact (Classical.not_not.mp (mt (h item) other)).symm
  rw [← onlyThese others, same, onlyThese]

/-- Items on different matters may change places. -/
theorem Give.of_perm (h : Give items options) (perm : others.Perm items)
    (escapes : others.filter Item.isEscape = items.filter Item.isEscape)
    (targets : others.filter Item.isTarget = items.filter Item.isTarget)
    : Give others options where
  valued item member := h.valued item (perm.mem_iff.mp member)
  single item member := h.single item (perm.mem_iff.mp member)
  named item member := h.named item (perm.mem_iff.mp member)
  pattern := by
    have patterns := perm.filterMap Item.pattern?
    rw [h.pattern] at patterns
    exact List.perm_singleton.mp patterns
  dialect := by rw [h.dialect, perm.any_eq]
  escape := by rw [h.escape, filterMap_eq_of_filter_eq (fun _ => isEscape_of_escape?) escapes]
  target := by rw [h.target, filterMap_eq_of_filter_eq (fun _ => isTarget_of_target?) targets]

/-- Arguments are cut into items without loss, an option with its value and a word for no option on
its own. They are accepted exactly when their items have no fault and one pattern among them, and
then the items say what the options are, the last of those on one matter. Otherwise the first fault
of an item is reported, or the lack of a pattern if there is no such fault. When arguments are
accepted, their items can be put in any order that keeps those on the escape and those on the target
in turn. -/
theorem options_given_by_items (arguments : List String)
    : let items := cut arguments
      (∀ word flag, Flag.ofArgument? word = some flag ↔ word ∈ flag.words)
      ∧ items.flatMap Item.arguments = arguments
      ∧ (∀ options, parse? arguments = .ok options ↔ Give items options)
      ∧ (∀ error, parse? arguments = .error error
        ↔ ∃ fault, error = .usage fault
          ∧ (firstFault? false items = some fault
            ∨ firstFault? false items = none
              ∧ (∀ item ∈ items, item.isPositional = false) ∧ fault = .noPattern))
      ∧ ∀ options (others : List Item), parse? arguments = .ok options → others.Perm items →
          others.filter Item.isEscape = items.filter Item.isEscape →
          others.filter Item.isTarget = items.filter Item.isTarget →
            parse? (others.flatMap Item.arguments) = .ok options := by
  refine ⟨fun _ _ => Flag.ofArgument?_eq_some_iff, flatMap_arguments_cut arguments,
    fun _ => parse?_eq_ok_iff, fun _ => parse?_eq_error_iff, ?_⟩
  intro options others accepted perm escapes targets
  have given := parse?_eq_ok_iff.mp accepted
  -- on success every value is there, so that the items can be told apart in any order
  have complete : ∀ item ∈ others, item.value.isSome = takesValue item.word := by
    intro item member
    have present := perm.mem_iff.mp member
    exact Bool.eq_iff_iff.mpr ⟨takesValue_of_mem_cut present, given.valued item present⟩
  rw [parse?_eq_ok_iff, cut_flatMap_arguments complete]
  exact given.of_perm perm escapes targets

/-- A value that looks like an option, and options behind the pattern. The options on the escape
stay in turn when the others change places. -/
theorem options_given_by_items_reordered
    : let arguments := ["-e", "-", "-t", "unix", "--no-escape", "a%", "--to", "regex", "-s"]
      let others : List Item := [⟨"-t", some "unix"⟩, ⟨"-s", none⟩, ⟨"-e", some "-"⟩, ⟨"a%", none⟩,
        ⟨"--to", some "regex"⟩, ⟨"--no-escape", none⟩]
      parse? arguments = .ok ⟨.sql92, none, some .regex, ['a', '%']⟩
        ∧ others.Perm (cut arguments)
        ∧ others.filter Item.isEscape = (cut arguments).filter Item.isEscape
        ∧ others.filter Item.isTarget = (cut arguments).filter Item.isTarget
        ∧ parse? ["-t", "unix", "-s", "-e", "-", "a%", "--to", "regex", "--no-escape"]
          = .ok ⟨.sql92, none, some .regex, ['a', '%']⟩ := by
  intro arguments others
  have accepted : parse? arguments = .ok ⟨.sql92, none, some .regex, ['a', '%']⟩ := rfl
  have perm : others.Perm (cut arguments) := by decide
  have escapes : others.filter Item.isEscape = (cut arguments).filter Item.isEscape := by decide
  have targets : others.filter Item.isTarget = (cut arguments).filter Item.isTarget := by decide
  obtain ⟨-, -, -, -, reordered⟩ := options_given_by_items arguments
  exact ⟨accepted, perm, escapes, targets, reordered _ others accepted perm escapes targets⟩

/-- A fault is reported before the lack of a pattern. -/
example
    : parse? ["-s", "-t", "glob"] = .error (.usage (.unknownDialect "glob"))
      ∧ parse? ["-s"] = .error (.usage .noPattern) :=
  ⟨rfl, rfl⟩

end Wildcard.Options
