import Wildcard.Command
import Wildcard.Proofs.Pattern.Flat
import Wildcard.Proofs.Render.Stable
import Wildcard.Proofs.Text.Lines

/-! What a run of the command leaves behind.
A fault leaves its message and nothing else, at whatever stage it turns up. Without one, a run
either writes its pattern on a line, whatever the input is, or prints the lines of the input that
the pattern matches. Once the arguments are understood there are few faults left, as every
expression in them is read as a row of flat items.
-/

namespace Wildcard

-----------------------------------------------------------------------------------------
-- Reading
-----------------------------------------------------------------------------------------

/-- A dialect that patterns can be read from. -/
def Dialect.IsReadable (dialect : Dialect) : Prop :=
  dialect = .unix ∨ dialect = .sql92

namespace Options

/-- No arguments choose a dialect that cannot be read, by induction on the arguments. -/
theorem isReadable_of_readArguments {draft result : Draft} {arguments : List String}
    (readable : draft.dialect.IsReadable) (h : readArguments draft arguments = .ok result)
    : result.dialect.IsReadable := by
  fun_induction readArguments draft arguments with
  | case1 =>
      cases h
      exact readable
  | case2 _ _ _ _ ih => exact ih (.inr rfl) h
  | case3 _ _ _ _ ih | case8 _ _ _ _ _ ih => exact ih readable h
  | case5 _ _ _ _ _ ih | case7 _ _ _ _ _ ih =>
      obtain ⟨value, -, h⟩ := exists_of_bind_eq_ok h
      exact ih value readable h
  | case4 | case6 | case9 => exact absurd h nofun

variable {arguments : List String} {options : Options}

theorem isReadable_of_parse? (h : parse? arguments = .ok options)
    : options.dialect.IsReadable := by
  obtain ⟨draft, hdraft, h⟩ := exists_of_bind_eq_ok h
  have readable := isReadable_of_readArguments (.inl rfl) hdraft
  split at h
  · exact absurd h nofun
  · cases h
    exact readable

/-- The pattern among the arguments is always read, and as a row of flat items. -/
theorem exists_readPattern? (h : parse? arguments = .ok options)
    : ∃ items, (∀ item ∈ items, Pattern.IsFlat item)
        ∧ options.readPattern? = .ok (.ofItems items) := by
  unfold readPattern?
  rcases isReadable_of_parse? h with unix | sql92
  · rw [unix]
    exact ⟨_, Unix.isFlat_of_mem_items, rfl⟩
  · rw [sql92]
    exact ⟨_, Sql92.isFlat_of_mem_items, Sql92.parse_eq_ok ..⟩

end Options

-----------------------------------------------------------------------------------------
-- Writing
-----------------------------------------------------------------------------------------

/-- A wildcard language refuses no flat items. -/
theorem Spelling.render_ofItems_ne_error {sp : Spelling} {items : List Pattern}
    (areFlat : ∀ item ∈ items, item.IsFlat) (escape : Char) (extra : List Char) (fault : Error)
    : (Pattern.ofItems items).render (sp.renderer escape extra) ≠ .error fault := by
  obtain ⟨text, written⟩ := exists_render_ofItems areFlat escape extra
  rw [written]
  exact nofun

namespace Dialect

/-- The reasons not to write a pattern in a dialect with or without an escape. -/
inductive Refuses : Dialect → Option Char → Error → Prop where
  | unix : Refuses .unix none (.usage .escapeRequired)
  | sql92 : Refuses .sql92 none (.usage .escapeRequired)
  | simple (escape : Option Char) (kind : Kind) : Refuses .simple escape (.notSimple kind)

/-- Flat items are refused for no other reason. -/
theorem refuses_of_write? {target : Dialect} {escape : Option Char} {items : List Pattern}
    {fault : Error} (areFlat : ∀ item ∈ items, item.IsFlat)
    (h : target.write? escape (.ofItems items) = .error fault)
    : target.Refuses escape fault := by
  unfold write? at h
  split at h
  · exact absurd h (Spelling.render_ofItems_ne_error areFlat _ [] fault)
  · exact absurd h (Spelling.render_ofItems_ne_error areFlat _ [] fault)
  · cases h
    exact .unix
  · cases h
    exact .sql92
  · exact absurd ((Expression.render_eq _).symm.trans h) nofun
  · obtain ⟨kind, rfl⟩ := Pattern.exists_eq_notSimple h
    exact .simple _ kind

end Dialect

-----------------------------------------------------------------------------------------
-- Outcomes
-----------------------------------------------------------------------------------------

namespace Outcome

/-- A fault leaves no output but its message. -/
structure FailsWith (outcome : Outcome) (fault : Error) : Prop where
  status : outcome.status = 2
  output : outcome.output = []
  diagnostics : outcome.diagnostics = fault.message.toList ++ ['\n']

theorem failsWith_failure (fault : Error)
    : (failure fault).FailsWith fault :=
  ⟨rfl, rfl, rfl⟩

/-- One text is put out, on a line of its own. -/
structure Prints (outcome : Outcome) (text : List Char) : Prop where
  status : outcome.status = 0
  output : outcome.output = text ++ ['\n']
  diagnostics : outcome.diagnostics = []

open Classical in
/-- Of some lines those are put out that a pattern matches, in their order and with a line feed
behind each. The status tells whether there are any. -/
structure PrintsMatches (outcome : Outcome) (p : Pattern) (lines : List (List Char)) : Prop where
  status : outcome.status = if ∃ line ∈ lines, p.Matches line then 0 else 1
  output : outcome.output = (lines.filter fun line => p.Matches line).flatMap (· ++ ['\n'])
  diagnostics : outcome.diagnostics = []

variable {p : Pattern} {m : Matcher}

open Classical in
/-- The lines that a matcher accepts are those that its pattern matches. -/
theorem printsMatches_filtered (h : p.matcher? = .ok m) (text : List Char)
    : (filtered m text).PrintsMatches p (Text.lines text) := by
  have same : (Text.lines text).filter m.test
      = (Text.lines text).filter fun line => p.Matches line := by
    refine List.filter_congr fun line _ => ?_
    rw [Bool.eq_iff_iff, decide_eq_true_iff]
    exact Pattern.test_iff_matches h line
  have noneFound : ((Text.lines text).filter fun line => p.Matches line).isEmpty
      ↔ ¬ ∃ line ∈ Text.lines text, p.Matches line := by
    simp only [List.isEmpty_iff, List.filter_eq_nil_iff, decide_eq_true_iff, not_exists, not_and]
  refine ⟨?_, congrArg (List.flatMap (· ++ ['\n'])) same, rfl⟩
  change (if ((Text.lines text).filter m.test).isEmpty then (1 : UInt32) else 0) = _
  rw [same, if_congr noneFound rfl rfl, ite_not]

end Outcome

-----------------------------------------------------------------------------------------
-- Runs
-----------------------------------------------------------------------------------------

namespace Command

variable {arguments : List String} {options : Options} {p : Pattern}

theorem run_of_parse?_eq_error {fault : Error} (h : Options.parse? arguments = .error fault)
    (input : ByteArray)
    : run arguments input = .failure fault := by
  rw [run, task?, h]
  rfl

/-- With a target there is only writing to be done. -/
theorem run_of_target (told : Options.parse? arguments = .ok options)
    (read : options.readPattern? = .ok p) {target : Dialect}
    (hasTarget : options.target = some target) (input : ByteArray)
    : run arguments input = match target.write? options.escape p with
        | .ok text => .written text
        | .error fault => .failure fault := by
  have task : task? arguments = (do return .write (← target.write? options.escape p)) := by
    simp only [task?, told, read, hasTarget, bind, Except.bind]
  rw [run, task]
  cases target.write? options.escape p <;> rfl

/-- Without a target there is only filtering to be done. -/
theorem run_of_noTarget (told : Options.parse? arguments = .ok options)
    (read : options.readPattern? = .ok p) (noTarget : options.target = none) (input : ByteArray)
    : run arguments input = match p.matcher? with
        | .ok m => filterBytes m input
        | .error fault => .failure fault := by
  have task : task? arguments = (do return .filter (← p.matcher?)) := by
    simp only [task?, told, read, noTarget, bind, Except.bind]
  rw [run, task]
  cases p.matcher? <;> rfl

/-- What the options ask for is done to a pattern and some input, or a fault in it is reported. -/
structure CarriesOut (options : Options) (p : Pattern) (input : ByteArray) (outcome : Outcome)
    : Prop where
  written {target : Dialect} {text : List Char} : options.target = some target →
    target.write? options.escape p = .ok text → outcome.Prints text
  refused {target : Dialect} {fault : Error} : options.target = some target →
    target.write? options.escape p = .error fault →
    outcome.FailsWith fault ∧ target.Refuses options.escape fault
  tooLarge {fault : Error} : options.target = none → p.matcher? = .error fault →
    outcome.FailsWith fault ∧ fault = .invalidExpression ∧ p.TakesTooMuchRoom
  notText {m : Matcher} : options.target = none → p.matcher? = .ok m →
    String.fromUTF8? input = none → outcome.FailsWith .inputNotText
  filtered {m : Matcher} {text : String} : options.target = none → p.matcher? = .ok m →
    String.fromUTF8? input = some text →
    ∃ lines, Text.IsLines text.toList lines ∧ outcome.PrintsMatches p lines

/-- A run does what its arguments ask for. -/
theorem carriesOut_run {items : List Pattern} (areFlat : ∀ item ∈ items, item.IsFlat)
    (told : Options.parse? arguments = .ok options)
    (read : options.readPattern? = .ok (.ofItems items)) (input : ByteArray)
    : CarriesOut options (.ofItems items) input (run arguments input) where
  written hasTarget hwritten := by
    rw [run_of_target told read hasTarget, hwritten]
    exact ⟨rfl, rfl, rfl⟩
  refused hasTarget hfault := by
    rw [run_of_target told read hasTarget, hfault]
    exact ⟨Outcome.failsWith_failure _, Dialect.refuses_of_write? areFlat hfault⟩
  tooLarge noTarget hfault := by
    rw [run_of_noTarget told read noTarget, hfault]
    exact ⟨Outcome.failsWith_failure _, Pattern.takesTooMuchRoom_of_matcher? areFlat hfault⟩
  notText noTarget compiled hinput := by
    rw [run_of_noTarget told read noTarget, compiled]
    dsimp only
    rw [filterBytes, hinput]
    exact Outcome.failsWith_failure _
  filtered noTarget compiled hinput := by
    rw [run_of_noTarget told read noTarget, compiled]
    dsimp only
    rw [filterBytes, hinput]
    exact ⟨_, Text.isLines_iff.mpr rfl, Outcome.printsMatches_filtered compiled _⟩

/-- Arguments with a fault are reported. All others hold a pattern that is read without a fault and
has a bound, and what they ask for is done. -/
theorem run_writes_or_filters (arguments : List String) (input : ByteArray)
    : (∀ fault, Options.parse? arguments = .error fault →
        (run arguments input).FailsWith fault)
      ∧ ∀ options, Options.parse? arguments = .ok options →
        ∃ p bound, options.readPattern? = .ok p ∧ p.lowerBound = .ok bound
          ∧ CarriesOut options p input (run arguments input) := by
  refine ⟨fun fault h => ?_, fun options told => ?_⟩
  · rw [run_of_parse?_eq_error h]
    exact Outcome.failsWith_failure fault
  · obtain ⟨items, areFlat, read⟩ := Options.exists_readPattern? told
    obtain ⟨bound, hbound⟩ := Pattern.exists_lowerBound_ofItems areFlat
    exact ⟨_, bound, read, hbound, carriesOut_run areFlat told read input⟩

/-- A missing pattern is reported, an expression is written as a wildcard whatever the input is, and
the lines that the expression matches are printed if the input is text. -/
theorem run_writes_or_filters_prefix
    : let p : Pattern := .group [.literal ['a'], .anyString]
      Options.parse? [] = .error (.usage .noPattern)
        ∧ Options.parse? ["-s", "a%", "-t", "unix"]
          = .ok ⟨.sql92, some '\\', some .unix, ['a', '%']⟩
        ∧ Options.parse? ["-s", "a%"] = .ok ⟨.sql92, some '\\', none, ['a', '%']⟩
        ∧ (run [] ⟨#[0xff]⟩).FailsWith (.usage .noPattern)
        ∧ (run ["-s", "a%", "-t", "unix"] ⟨#[0xff]⟩).Prints ['a', '*']
        ∧ (run ["-s", "a%"] ⟨#[0xff]⟩).FailsWith .inputNotText
        ∧ ∃ lines, Text.IsLines "ab\r\nb\nac".toList lines
          ∧ (run ["-s", "a%"] "ab\r\nb\nac".toUTF8).PrintsMatches p lines := by
  intro p
  have misused : Options.parse? [] = .error (.usage .noPattern) := rfl
  have toWrite : Options.parse? ["-s", "a%", "-t", "unix"]
      = .ok ⟨.sql92, some '\\', some .unix, ['a', '%']⟩ := rfl
  have toFilter : Options.parse? ["-s", "a%"] = .ok ⟨.sql92, some '\\', none, ['a', '%']⟩ := rfl
  have compiled := Pattern.matcher?_eq_ok_iff (p := p).mpr ⟨rfl, by decide +kernel, rfl⟩
  obtain ⟨_, _, read, -, writing⟩ :=
    (run_writes_or_filters ["-s", "a%", "-t", "unix"] ⟨#[0xff]⟩).2 _ toWrite
  cases read
  obtain ⟨_, _, read, -, refusing⟩ := (run_writes_or_filters ["-s", "a%"] ⟨#[0xff]⟩).2 _ toFilter
  cases read
  obtain ⟨_, _, read, -, filtering⟩ :=
    (run_writes_or_filters ["-s", "a%"] "ab\r\nb\nac".toUTF8).2 _ toFilter
  cases read
  exact ⟨misused, toWrite, toFilter, (run_writes_or_filters [] ⟨#[0xff]⟩).1 _ misused,
    writing.written rfl rfl, refusing.notText rfl compiled rfl, filtering.filtered rfl compiled rfl⟩

end Command

end Wildcard
