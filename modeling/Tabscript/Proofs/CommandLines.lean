import Tabscript.Command.Options
import Tabscript.Proofs.Reading

/-!
# Command lines that differ in what to emit

A command line is read choice by choice, and a choice takes one argument or two. Choices of
different kinds do not see each other, so a command line that is understood is still understood
with another value for what to emit, and then asks for the same but for that.

* `Choice` is what one or two arguments choose, and `Makes` says which arguments make it.
* `Choices.read_induction` takes a command line apart into its choices.
* `Invocation.ofArguments_replace` replaces the choice of what to emit.
-/

namespace Tabscript

/-! ## Single choices -/

/-- What one or two arguments choose. -/
inductive Choice where
  | path (text : String)
  | debug
  | target (value : String)
  | emit (value : String)

/-- The first of the arguments make the choice, and the others are left. -/
inductive Makes : List String → Choice → List String → Prop
  | path {argument text : String} (reads : Argument.ofText argument = .path text)
      (rest : List String) : Makes (argument :: rest) (.path text) rest
  | debug {argument : String} (reads : Argument.ofText argument = .debug) (rest : List String) :
      Makes (argument :: rest) .debug rest
  /-- A target in the argument itself. -/
  | target {argument value : String} (reads : Argument.ofText argument = .target (some value))
      (rest : List String) : Makes (argument :: rest) (.target value) rest
  /-- A target in the next argument. -/
  | targetApart {argument : String} (reads : Argument.ofText argument = .target none)
      (value : String) (rest : List String) : Makes (argument :: value :: rest) (.target value) rest
  /-- What to produce in the argument itself. -/
  | emit {argument value : String} (reads : Argument.ofText argument = .emit (some value))
      (rest : List String) : Makes (argument :: rest) (.emit value) rest
  /-- What to produce in the next argument. -/
  | emitApart {argument : String} (reads : Argument.ofText argument = .emit none)
      (value : String) (rest : List String) : Makes (argument :: value :: rest) (.emit value) rest

/-- What stands behind a choice plays no part in it. -/
theorem Makes.append {arguments rest : List String} {choice : Choice}
    (h : Makes arguments choice rest) (more : List String) :
    Makes (arguments ++ more) choice (rest ++ more) := by
  cases h with
  | path reads rest => exact .path reads _
  | debug reads rest => exact .debug reads _
  | target reads rest => exact .target reads _
  | targetApart reads value rest => exact .targetApart reads value _
  | emit reads rest => exact .emit reads _
  | emitApart reads value rest => exact .emitApart reads value _

theorem Makes.mem_of_mem {arguments rest : List String} {choice : Choice}
    (h : Makes arguments choice rest) {argument : String} (hrest : argument ∈ rest) :
    argument ∈ arguments := by
  cases h <;> simp [hrest]

theorem Argument.eq_of_ofText_eq_endOfOptions {argument : String}
    (h : ofText argument = .endOfOptions) : argument = "--" := by
  unfold ofText at h
  split at h
  · rename_i htext
    exact String.toList_inj.1 htext
  · unfold ofLong at h
    dsimp only at h
    split at h <;> cases h
  all_goals cases h

namespace Choices

/-- Adds a choice to those made before it. -/
def make (c : Choices) : Choice → Except UsageError Choices
  | .path text => c.addPath text
  | .debug => c.setDebug
  | .target value => c.setTarget value
  | .emit value => c.setEmit value

/-- There is room for two paths, and none of them is empty. -/
theorem addPath_eq_ok_iff {c c' : Choices} {path : String} :
    c.addPath path = .ok c' ↔
      path ≠ "" ∧ c.paths.length < 2 ∧ c' = { c with paths := c.paths ++ [path] } := by
  unfold addPath
  by_cases hpath : path = ""
  · simp [hpath]
  · by_cases hpaths : c.paths.length < 2
    · simp [hpath, hpaths, Nat.not_le.2 hpaths, eq_comm (a := c')]
    · simp [hpath, hpaths, Nat.not_lt.1 hpaths]

theorem setDebug_eq_ok_iff {c c' : Choices} :
    c.setDebug = .ok c' ↔ c.debug = false ∧ c' = { c with debug := true } := by
  unfold setDebug
  cases c.debug with
  | false => simp [eq_comm (a := c')]
  | true => simp

/-- The target is chosen once, by a name that options know. -/
theorem setTarget_eq_ok_iff {c c' : Choices} {value : String} :
    c.setTarget value = .ok c' ↔
      c.target = .none ∧ ∃ target, Target.ofOption? value = some target ∧
        c' = { c with target := some target } := by
  unfold setTarget
  cases c.target with
  | some target => simp
  | none =>
    cases Target.ofOption? value with
    | none => simp
    | some target =>
      constructor
      · rintro ⟨⟩
        exact ⟨rfl, target, rfl, rfl⟩
      · rintro ⟨-, _, ⟨⟩, rfl⟩
        rfl

theorem setEmit_eq_ok_iff {c c' : Choices} {value : String} :
    c.setEmit value = .ok c' ↔
      c.emit = .none ∧ ∃ emit, Emit.ofName? value = some emit ∧
        c' = { c with emit := some emit } := by
  unfold setEmit
  cases c.emit with
  | some emit => simp
  | none =>
    cases Emit.ofName? value with
    | none => simp
    | some emit =>
      constructor
      · rintro ⟨⟩
        exact ⟨rfl, emit, rfl, rfl⟩
      · rintro ⟨-, _, ⟨⟩, rfl⟩
        rfl

/-! ## Reading choice by choice -/

theorem read_of_makes {arguments rest : List String} {choice : Choice}
    (h : Makes arguments choice rest) (c : Choices) :
    c.read arguments = c.make choice >>= fun c' => c'.read rest := by
  rw [read.eq_def]
  cases h <;> simp only [*, make]

theorem read_eq_ok_iff_of_makes {arguments rest : List String} {choice : Choice}
    (h : Makes arguments choice rest) {c f : Choices} :
    c.read arguments = .ok f ↔ ∃ c', c.make choice = .ok c' ∧ c'.read rest = .ok f := by
  rw [read_of_makes h, Parse.bind_eq_ok_iff]

/-- Behind a double dash there are only paths. -/
theorem read_endOfOptions (c : Choices) (rest : List String) :
    c.read ("--" :: rest) = rest.foldlM addPath c := by
  have reads : Argument.ofText "--" = .endOfOptions := rfl
  rw [read.eq_def]
  simp only [reads]

/-- An option whose value is the next argument. -/
def NeedsValue (argument : String) : Prop :=
  Argument.ofText argument = .target .none ∨ Argument.ofText argument = .emit .none

/-- An option cannot end a command line if its value has to follow. -/
theorem read_ne_ok_of_needsValue {argument : String} (h : NeedsValue argument) (c f : Choices) :
    c.read [argument] ≠ .ok f := by
  rw [read.eq_def]
  rcases h with h | h <;> simp [h]

theorem read_ne_ok_of_unknown {argument text : String}
    (h : Argument.ofText argument = .unknown text) (c f : Choices) (rest : List String) :
    c.read (argument :: rest) ≠ .ok f := by
  rw [read.eq_def]
  simp [h]

/-- Arguments make a choice before others, or end the options, or are not understood. -/
@[elab_as_elim]
theorem read_induction {motive : List String → Prop} (nil : motive [])
    (choice : ∀ arguments choice rest, Makes arguments choice rest → motive rest →
      motive arguments)
    (endOfOptions : ∀ rest, motive ("--" :: rest))
    (needsValue : ∀ argument, NeedsValue argument → motive [argument])
    (unknown : ∀ argument text rest, Argument.ofText argument = .unknown text →
      motive (argument :: rest))
    (arguments : List String) : motive arguments := by
  induction Choices.none, arguments using read.induct with
  | case1 => exact nil
  | case2 _ argument rest path reads ih => exact choice _ _ rest (.path reads rest) (ih .none)
  | case3 _ argument rest reads =>
    rw [Argument.eq_of_ofText_eq_endOfOptions reads]
    exact endOfOptions rest
  | case4 _ argument rest reads ih => exact choice _ _ rest (.debug reads rest) (ih .none)
  | case5 _ argument rest value reads ih => exact choice _ _ rest (.target reads rest) (ih .none)
  | case6 _ argument rest value reads ih => exact choice _ _ rest (.emit reads rest) (ih .none)
  | case7 _ argument reads => exact needsValue argument (.inl reads)
  | case8 _ argument reads value rest ih =>
    exact choice _ _ rest (.targetApart reads value rest) (ih .none)
  | case9 _ argument reads => exact needsValue argument (.inr reads)
  | case10 _ argument reads value rest ih =>
    exact choice _ _ rest (.emitApart reads value rest) (ih .none)
  | case11 _ argument rest text reads => exact unknown argument text rest reads

/-! ## Other choices of what to emit -/

/-- The choices with another one of what to produce. -/
def withEmit (c : Choices) (emit : Emit) : Choices := { c with emit := some emit }

variable {c c' f : Choices} {e : Emit}

theorem addPath_withEmit {path : String} (h : c.addPath path = .ok c') (e' : Emit) :
    c'.emit = c.emit ∧ (c.withEmit e').addPath path = .ok (c'.withEmit e') := by
  obtain ⟨hpath, hpaths, rfl⟩ := addPath_eq_ok_iff.1 h
  exact ⟨rfl, addPath_eq_ok_iff.2 ⟨hpath, hpaths, rfl⟩⟩

/-- Where something to produce was chosen before, no further choice is about that. -/
theorem make_withEmit {choice : Choice} (hc : c.emit = some e) (h : c.make choice = .ok c')
    (e' : Emit) :
    c'.emit = some e ∧ (c.withEmit e').make choice = .ok (c'.withEmit e') := by
  cases choice with
  | path text => exact hc ▸ addPath_withEmit h e'
  | debug =>
    obtain ⟨hdebug, rfl⟩ := setDebug_eq_ok_iff.1 h
    exact ⟨hc, setDebug_eq_ok_iff.2 ⟨hdebug, rfl⟩⟩
  | target value =>
    obtain ⟨htarget, target, hvalue, rfl⟩ := setTarget_eq_ok_iff.1 h
    exact ⟨hc, setTarget_eq_ok_iff.2 ⟨htarget, target, hvalue, rfl⟩⟩
  | emit value =>
    obtain ⟨hemit, -⟩ := setEmit_eq_ok_iff.1 h
    cases hc.symm.trans hemit

theorem foldlM_addPath_withEmit {paths : List String} (h : paths.foldlM addPath c = .ok f)
    (e' : Emit) :
    f.emit = c.emit ∧ paths.foldlM addPath (c.withEmit e') = .ok (f.withEmit e') := by
  induction paths generalizing c with
  | nil =>
    cases h
    exact ⟨rfl, rfl⟩
  | cons path paths ih =>
    rw [List.foldlM_cons, Parse.bind_eq_ok_iff] at h
    obtain ⟨c', hpath, hpaths⟩ := h
    obtain ⟨hemit, hpath'⟩ := addPath_withEmit hpath e'
    obtain ⟨hemit', hpaths'⟩ := ih hpaths
    rw [List.foldlM_cons, hpath']
    exact ⟨hemit'.trans hemit, hpaths'⟩

/-- Once it is chosen what to produce, the rest of the command line is read without regard to it. -/
theorem read_withEmit {arguments : List String} (hc : c.emit = some e)
    (h : c.read arguments = .ok f) (e' : Emit) :
    f.emit = some e ∧ (c.withEmit e').read arguments = .ok (f.withEmit e') := by
  induction arguments using read_induction generalizing c with
  | nil =>
    cases h
    exact ⟨hc, rfl⟩
  | choice arguments choice rest makes ih =>
    obtain ⟨c', hmake, hread⟩ := (read_eq_ok_iff_of_makes makes).1 h
    obtain ⟨hc', hmake'⟩ := make_withEmit hc hmake e'
    obtain ⟨hf, hread'⟩ := ih hc' hread
    exact ⟨hf, (read_eq_ok_iff_of_makes makes).2 ⟨_, hmake', hread'⟩⟩
  | endOfOptions rest =>
    rw [read_endOfOptions] at h ⊢
    exact hc ▸ foldlM_addPath_withEmit h e'
  | needsValue argument needs => exact absurd h (read_ne_ok_of_needsValue needs c f)
  | unknown argument text rest reads => exact absurd h (read_ne_ok_of_unknown reads c f rest)

end Choices

/-! ## The option for what to emit -/

namespace Emit

/-- The name on a command line. -/
def name : Emit → String
  | tokens => "tokens"
  | tree => "tree"
  | code => "code"

@[simp] theorem ofName?_name (e : Emit) : ofName? e.name = some e := by
  cases e <;> rfl

/-- The ways to write the option: with its value as the next argument or after an equals sign. -/
def options (e : Emit) : List (List String) := [["--emit", e.name], ["--emit=" ++ e.name]]

variable {e : Emit} {option : List String}

/-- Each way to write the option chooses what it names. -/
theorem makes_of_mem_options (h : option ∈ e.options) (rest : List String) :
    Makes (option ++ rest) (.emit e.name) rest := by
  simp only [options, List.mem_cons, List.not_mem_nil, or_false] at h
  rcases h with rfl | rfl
  · exact .emitApart rfl e.name rest
  · refine .emit ?_ rest
    cases e <;> decide

/-- The option is no value for an option before it. -/
theorem read_ne_ok_of_mem_options (h : option ∈ e.options) {argument : String}
    (needs : Choices.NeedsValue argument) (c f : Choices) (rest : List String) :
    c.read (argument :: (option ++ rest)) ≠ .ok f := by
  obtain ⟨first, more, rfl, htarget, hemit⟩ : ∃ first more, option = first :: more ∧
      Target.ofOption? first = none ∧ ofName? first = none := by
    simp only [options, List.mem_cons, List.not_mem_nil, or_false] at h
    rcases h with rfl | rfl
    · exact ⟨_, _, rfl, rfl, rfl⟩
    · refine ⟨_, _, rfl, ?_⟩
      cases e <;> decide
  intro hread
  rcases needs with reads | reads
  · obtain ⟨c', hmake, -⟩ :=
      (Choices.read_eq_ok_iff_of_makes (.targetApart reads first (more ++ rest))).1 hread
    obtain ⟨-, target, hvalue, -⟩ := Choices.setTarget_eq_ok_iff.1 hmake
    cases htarget.symm.trans hvalue
  · obtain ⟨c', hmake, -⟩ :=
      (Choices.read_eq_ok_iff_of_makes (.emitApart reads first (more ++ rest))).1 hread
    obtain ⟨-, emit, hvalue, -⟩ := Choices.setEmit_eq_ok_iff.1 hmake
    cases hemit.symm.trans hvalue

end Emit

/-- The option can be replaced by one with another value wherever it stands before the end of the
options. -/
theorem Choices.read_replace {c f : Choices} {e e' : Emit} {option option' : List String}
    (hoption : option ∈ e.options) (hoption' : option' ∈ e'.options)
    {before after : List String} (hbefore : "--" ∉ before)
    (h : c.read (before ++ (option ++ after)) = .ok f) :
    f.emit = some e ∧ c.read (before ++ (option' ++ after)) = .ok (f.withEmit e') := by
  induction before using read_induction generalizing c with
  | nil =>
    obtain ⟨c', hmake, hread⟩ :=
      (read_eq_ok_iff_of_makes (Emit.makes_of_mem_options hoption after)).1 h
    obtain ⟨hc, e, he, rfl⟩ := setEmit_eq_ok_iff.1 hmake
    cases (Emit.ofName?_name _).symm.trans he
    obtain ⟨hf, hread'⟩ := read_withEmit rfl hread e'
    refine ⟨hf, (read_eq_ok_iff_of_makes (Emit.makes_of_mem_options hoption' after)).2
      ⟨c.withEmit e', ?_, hread'⟩⟩
    exact setEmit_eq_ok_iff.2 ⟨hc, e', Emit.ofName?_name e', rfl⟩
  | choice arguments choice rest makes ih =>
    obtain ⟨c', hmake, hread⟩ := (read_eq_ok_iff_of_makes (makes.append _)).1 h
    obtain ⟨hf, hread'⟩ := ih (fun hmem => hbefore (makes.mem_of_mem hmem)) hread
    exact ⟨hf, (read_eq_ok_iff_of_makes (makes.append _)).2 ⟨c', hmake, hread'⟩⟩
  | endOfOptions rest => simp at hbefore
  | needsValue argument needs =>
    exact absurd h (Emit.read_ne_ok_of_mem_options hoption needs c f after)
  | unknown argument text rest reads => exact absurd h (read_ne_ok_of_unknown reads c f _)

/-! ## Invocations -/

namespace Invocation

/-- A command line is understood if its choices are and they name a file to read. -/
theorem ofArguments_eq_ok_iff {arguments : List String} {setting? : Option String}
    {i : Invocation} :
    ofArguments arguments setting? = .ok i ↔
      ∃ c debug input more, Choices.none.read arguments = .ok c ∧
        wantsDebug c.debug setting? = .ok debug ∧ c.paths = input :: more ∧
        i = ⟨input, more.head?, c.target.getD .javaScript, c.emit.getD .code, debug⟩ := by
  rw [ofArguments, Parse.bind_eq_ok_iff]
  constructor
  · rintro ⟨c, hread, h⟩
    obtain ⟨debug, hdebug, h⟩ := Parse.bind_eq_ok_iff.1 h
    cases hpaths : c.paths with
    | nil =>
      rw [hpaths] at h
      cases h
    | cons input more =>
      rw [hpaths] at h
      cases h
      exact ⟨c, debug, input, more, hread, hdebug, hpaths, rfl⟩
  · rintro ⟨c, debug, input, more, hread, hdebug, hpaths, rfl⟩
    refine ⟨c, hread, Parse.bind_eq_ok_iff.2 ⟨debug, hdebug, ?_⟩⟩
    rw [hpaths]

/-- A command line with an option for what to emit asks for that, and with another such option in
its place for the same but for that. -/
theorem ofArguments_replace {e e' : Emit} {option option' : List String}
    (hoption : option ∈ e.options) (hoption' : option' ∈ e'.options)
    {before after : List String} (hbefore : "--" ∉ before) {setting? : Option String}
    {i : Invocation} (h : ofArguments (before ++ (option ++ after)) setting? = .ok i) :
    i.emit = e ∧
      ofArguments (before ++ (option' ++ after)) setting? = .ok { i with emit := e' } := by
  obtain ⟨c, debug, input, more, hread, hdebug, hpaths, rfl⟩ := ofArguments_eq_ok_iff.1 h
  obtain ⟨hc, hread'⟩ := Choices.read_replace hoption hoption' hbefore hread
  refine ⟨by rw [hc]; rfl, ofArguments_eq_ok_iff.2 ?_⟩
  exact ⟨_, debug, input, more, hread', hdebug, hpaths, rfl⟩

end Invocation

end Tabscript
