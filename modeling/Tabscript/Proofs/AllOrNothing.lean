import Tabscript.Command.Run
import Tabscript.Directory
import Tabscript.Proofs.CommandLines

/-!
# Runs do all or nothing

A run in a directory either fails, and then it prints nothing and leaves every file as it was, or
it succeeds, and then it has delivered the whole of what was asked for: into one file, with nothing
printed and no other file touched, or onto the output stream, with no file touched at all. A later
stage needs all that the earlier ones produce, so a run that succeeds still does if it is made to
stop earlier.

* `Directory.Replaces` says what writing a file does to a directory.
* `Emits` says what is produced from a source, and `Delivers` where it ends up.
* `Invocation.performIn_perform` describes a run as producing and then delivering, and
  `runIn_cases` says what it can come to.
* `run_all_or_nothing` is the main statement.
-/

namespace Tabscript

/-! ## Writing a file -/

namespace Directory

/-- Where a path leads is known without the files, unless it leads through one. -/
theorem follow_eq_ok_of_follow_eq_ok {d : Directory} {inside : Bool} {names : List String}
    {destination : Destination} (h : d.follow inside names = .ok destination) (d' : Directory) :
    d'.follow inside names = .ok destination := by
  induction names generalizing inside with
  | nil => exact h
  | cons name rest ih =>
    by_cases hstay : name = "" ∨ name = "."
    · rw [follow, if_pos hstay] at h ⊢
      exact ih h
    by_cases hup : name = ".."
    · rw [follow, if_neg hstay, if_pos hup] at h ⊢
      exact ih h
    rw [follow, if_neg hstay, if_neg hup] at h ⊢
    cases inside with
    | false => cases h
    | true =>
      rw [if_neg (by decide)] at h ⊢
      -- the files are looked at only where the name is not the last one
      by_cases hlast : rest.all (· == "")
      · rw [if_pos hlast] at h ⊢
        exact h
      · rw [if_neg hlast] at h
        split at h <;> cases h

/-- Writing succeeds exactly on a path to a name in the directory, and replaces the file of that
name. -/
theorem write_eq_ok_iff {d after : Directory} {path : String} {content : ByteArray} :
    d.write path content = .ok after ↔
      ∃ name, d.resolve path = .ok (.entry name false) ∧ after = d.insert name content := by
  rw [write, Parse.bind_eq_ok_iff]
  constructor
  · rintro ⟨_ | ⟨name, _ | _⟩, hpath, h⟩
    · cases h
    · cases h
      exact ⟨name, hpath, rfl⟩
    · cases h
  · rintro ⟨name, hpath, rfl⟩
    exact ⟨_, hpath, rfl⟩

/-- The file a path leads to has the content, and every other file is as it was. -/
structure Replaces (before : Directory) (path : String) (content : ByteArray)
    (after : Directory) : Prop where
  /-- The path leads to a file, which has the content. -/
  read_eq : after.read path = .ok content
  /-- No other file has changed. -/
  others : ∃ name, before.resolve path = .ok (.entry name false) ∧
    ∀ other ≠ name, after.get? other = before.get? other

theorem replaces_of_write {d after : Directory} {path : String} {content : ByteArray}
    (h : d.write path content = .ok after) : d.Replaces path content after := by
  obtain ⟨name, hpath, rfl⟩ := write_eq_ok_iff.1 h
  have hafter : (d.insert name content).resolve path = .ok (.entry name false) :=
    follow_eq_ok_of_follow_eq_ok hpath _
  refine ⟨?_, name, hpath, fun other hother => get?_insert_of_ne d content hother⟩
  rw [read, hafter, Parse.ok_bind]
  simp only [get?_insert_self]
  rfl

end Directory

/-- The bytes that can be read as a text are the encodings of texts. -/
theorem decode_eq_ok_iff {content : ByteArray} {text : String} :
    decode content = .ok text ↔ content = text.toUTF8 := by
  constructor
  · intro h
    unfold decode String.fromUTF8? at h
    by_cases hvalid : content.IsValidUTF8
    · rw [dif_pos hvalid] at h
      cases h
      rfl
    · rw [dif_neg hvalid] at h
      cases h
  · rintro rfl
    rw [decode, String.fromUTF8?, String.toUTF8_eq_toByteArray, dif_pos text.isValidUTF8]
    rfl

/-! ## What is produced -/

/-- What is produced from a source, up to a stage. -/
inductive Emits (source : String) (target : Target) : Emit → String → Prop
  | tokens : Emits source target .tokens (String.join ((lex source).map fun t => t.dump ++ "\n"))
  | tree {p : Program} (parses : Program.parse (lex source) = .ok p) :
      Emits source target .tree p.dump
  | code {text : String} (compiles : compile source target = .ok text) :
      Emits source target .code text

/-- The stages in order. -/
def Emit.stage : Emit → Nat
  | tokens => 0
  | tree => 1
  | code => 2

theorem Program.ofSource_eq_ok_iff {source : String} {p : Program} :
    Program.ofSource source = .ok p ↔ Program.parse (lex source) = .ok p :=
  Parse.mapError_eq_ok_iff

/-- What is produced at a stage needs all that is produced before it. -/
theorem Emits.exists_of_stage_le {source : String} {target : Target} {e e' : Emit} {text : String}
    (h : Emits source target e text) (hstage : e'.stage ≤ e.stage) :
    ∃ text', Emits source target e' text' := by
  cases h with
  | tokens =>
    cases e' with
    | tokens => exact ⟨_, .tokens⟩
    | tree => cases hstage
    | code => cases hstage
  | tree parses =>
    cases e' with
    | tokens => exact ⟨_, .tokens⟩
    | tree => exact ⟨_, .tree parses⟩
    | code => exact absurd hstage (by decide)
  | code compiles =>
    obtain ⟨p, hp, -⟩ := Parse.bind_eq_ok_iff.1 compiles
    cases e' with
    | tokens => exact ⟨_, .tokens⟩
    | tree => exact ⟨_, .tree (Program.ofSource_eq_ok_iff.1 hp)⟩
    | code => exact ⟨_, .code compiles⟩

namespace Invocation

theorem artifact_eq_ok_iff {i : Invocation} {source text : String} :
    i.artifact source = .ok text ↔ Emits source i.target i.emit text := by
  obtain ⟨input, output, target, emit, debug⟩ := i
  cases emit with
  | tokens =>
    constructor
    · intro h
      cases h
      exact .tokens
    · intro h
      cases h
      rfl
  | tree =>
    constructor
    · intro h
      obtain ⟨p, hp, htext⟩ := Parse.bind_eq_ok_iff.1 h
      cases htext
      exact .tree (Program.ofSource_eq_ok_iff.1 hp)
    · intro h
      cases h with
      | tree parses =>
        exact Parse.bind_eq_ok_iff.2 ⟨_, Program.ofSource_eq_ok_iff.2 parses, rfl⟩
  | code =>
    constructor
    · exact .code
    · intro h
      cases h with
      | code compiles => exact compiles

end Invocation

/-- A text that ends with a line break. -/
def EndsInNewline (text : String) : Prop := ∃ line, text = line ++ "\n"

theorem getLast?_eq_newline_iff {text : String} :
    text.toList.getLast? = some '\n' ↔ EndsInNewline text := by
  rw [List.getLast?_eq_some_iff]
  constructor
  · rintro ⟨line, h⟩
    exact ⟨String.ofList line, String.toList_inj.1 (by rw [h, String.toList_append]; simp)⟩
  · rintro ⟨line, rfl⟩
    exact ⟨line.toList, String.toList_append⟩

/-! ## Running in a directory -/

section performIn

variable {α β : Type}

/-- What steps of a run return in a directory, and the directory after them. -/
def performIn (d : Directory) (x : ExceptT Failure (StateM Directory) α) :
    Except Failure α × Directory := x.run.run d

/-- A run goes on in the directory that its first part leaves, unless that part has failed. -/
theorem performIn_bind (d : Directory) (x : ExceptT Failure (StateM Directory) α)
    (k : α → ExceptT Failure (StateM Directory) β) :
    performIn d (x >>= k) = match performIn d x with
      | (.ok a, after) => performIn after (k a)
      | (.error e, after) => (.error e, after) := by
  rw [performIn, ExceptT.run_bind, StateT.run_bind, performIn]
  obtain ⟨_ | _, _⟩ := x.run.run d <;> rfl

theorem performIn_pure (d : Directory) (r : Except Failure α) :
    performIn d (ExceptT.mk (pure r)) = (r, d) := rfl

theorem performIn_read (d : Directory) (path : String) :
    performIn d (ExceptT.mk (Except.mapError (.read path) <$> Files.read path)) =
      ((d.read path).mapError (.read path), d) := rfl

theorem performIn_write (d : Directory) (path : String) (content : ByteArray) :
    performIn d (ExceptT.mk (Except.mapError (.write path) <$> Files.write path content)) =
      match d.write path content with
      | .ok after => (.ok (), after)
      | .error cause => (.error (.write path cause), d) := by
  rw [performIn, ExceptT.run_mk, StateT.run_map]
  simp only [Files.write, StateT.run_bind, StateT.run_get, pure_bind]
  cases d.write path content <;> rfl

end performIn

namespace Invocation

/-- What a run produces in a directory. -/
def produce (i : Invocation) (d : Directory) : Except Failure String := do
  let content ← (d.read i.input).mapError (.read i.input)
  let source ← (decode content).mapError (.read i.input)
  (i.artifact source).mapError .compile

/-- What a run does with what it has produced: the text printed, and the directory after it. -/
def deliver (i : Invocation) (d : Directory) (artifact : String) :
    Except Failure String × Directory :=
  match i.output with
  | none => (.ok (endLine artifact), d)
  | some path =>
    match d.write path artifact.toUTF8 with
    | .ok after => (.ok "", after)
    | .error cause => (.error (.write path cause), d)

theorem performIn_delivery (i : Invocation) (d : Directory) (artifact : String) :
    performIn d (match i.output with
      | none => return endLine artifact
      | some path => do
        ExceptT.mk (Except.mapError (.write path) <$> Files.write path artifact.toUTF8)
        return "") = i.deliver d artifact := by
  unfold deliver
  cases i.output with
  | none => rfl
  | some path =>
    dsimp only
    rw [performIn_bind, performIn_write]
    cases d.write path artifact.toUTF8 <;> rfl

/-- A run produces all of it before it delivers any. -/
theorem performIn_perform (i : Invocation) (d : Directory) :
    performIn d i.perform = match i.produce d with
      | .ok artifact => i.deliver d artifact
      | .error e => (.error e, d) := by
  unfold perform produce
  rw [performIn_bind, performIn_read]
  cases (d.read i.input).mapError (Failure.read i.input) with
  | error e => rfl
  | ok content =>
    dsimp only
    rw [performIn_bind, performIn_pure, Parse.ok_bind]
    cases (decode content).mapError (Failure.read i.input) with
    | error e => rfl
    | ok source =>
      dsimp only
      rw [performIn_bind, performIn_pure, Parse.ok_bind]
      cases (i.artifact source).mapError Failure.compile with
      | error e => rfl
      | ok artifact => exact performIn_delivery i d artifact

/-- There is something to deliver exactly if the input is a text from which it can be produced. -/
theorem produce_eq_ok_iff {i : Invocation} {d : Directory} {artifact : String} :
    i.produce d = .ok artifact ↔
      ∃ source, d.read i.input = .ok source.toUTF8 ∧ Emits source i.target i.emit artifact := by
  simp only [produce, Parse.bind_eq_ok_iff, Parse.mapError_eq_ok_iff, decode_eq_ok_iff,
    artifact_eq_ok_iff]
  constructor
  · rintro ⟨_, hread, source, rfl, hemits⟩
    exact ⟨source, hread, hemits⟩
  · rintro ⟨source, hread, hemits⟩
    exact ⟨_, hread, source, rfl, hemits⟩

end Invocation

/-- The whole of what was produced is where it was asked for: printed, with a line break if it does
not end in one, or in the output file. -/
inductive Delivers (artifact : String) (before : Directory) :
    Option String → String → Directory → Prop
  | print (ends : EndsInNewline artifact) : Delivers artifact before none artifact before
  | printLine (ends : ¬EndsInNewline artifact) :
      Delivers artifact before none (artifact ++ "\n") before
  | write {path : String} {after : Directory}
      (replaces : before.Replaces path artifact.toUTF8 after) :
      Delivers artifact before (some path) "" after

namespace Invocation

/-- The output can be written, if it is to be written. -/
def CanDeliver (i : Invocation) (d : Directory) : Prop :=
  ∀ path, i.output = some path → ∃ name, d.resolve path = .ok (.entry name false)

theorem canDeliver_of_delivers {i : Invocation} {d after : Directory} {artifact printed : String}
    (h : Delivers artifact d i.output printed after) : i.CanDeliver d := by
  intro path hpath
  rw [hpath] at h
  cases h with
  | write replaces =>
    obtain ⟨-, name, hname, -⟩ := replaces
    exact ⟨name, hname⟩

/-- A run delivers all that it has produced, or fails and leaves the files as they were. -/
theorem deliver_cases (i : Invocation) (d : Directory) (artifact : String) :
    (∃ printed after, i.deliver d artifact = (.ok printed, after) ∧
      Delivers artifact d i.output printed after) ∨
    ¬i.CanDeliver d ∧ ∃ e, i.deliver d artifact = (.error e, d) := by
  unfold deliver CanDeliver
  cases i.output with
  | none =>
    refine .inl ⟨_, _, rfl, ?_⟩
    by_cases ends : EndsInNewline artifact
    · rw [endLine, if_pos (getLast?_eq_newline_iff.2 ends)]
      exact .print ends
    · rw [endLine, if_neg (mt getLast?_eq_newline_iff.1 ends)]
      exact .printLine ends
  | some path =>
    dsimp only
    cases hwrite : d.write path artifact.toUTF8 with
    | ok after => exact .inl ⟨_, after, rfl, .write (Directory.replaces_of_write hwrite)⟩
    | error cause =>
      refine .inr ⟨fun h => ?_, _, rfl⟩
      obtain ⟨name, hname⟩ := h path rfl
      cases (Directory.write_eq_ok_iff.2 ⟨name, hname, rfl⟩).symm.trans hwrite

end Invocation

/-- The outcome of a command in a directory, and the directory after it. -/
def runIn (d : Directory) (arguments : List String) (setting? : Option String) :
    Outcome × Directory := (run arguments setting? : StateM Directory Outcome).run d

section runIn

variable {d after : Directory} {arguments : List String} {setting? : Option String}
  {outcome : Outcome}

/-- A command line that is not understood changes nothing. -/
theorem runIn_of_usage {e : UsageError} (h : Invocation.ofArguments arguments setting? = .error e) :
    runIn d arguments setting? = (⟨2, "", "error: " ++ e.message ++ "\n"⟩, d) := by
  rw [runIn, run, h]
  rfl

theorem runIn_of_invocation {i : Invocation}
    (h : Invocation.ofArguments arguments setting? = .ok i) :
    runIn d arguments setting? = match performIn d i.perform with
      | (.ok printed, after) => (⟨0, printed, ""⟩, after)
      | (.error e, after) => (⟨1, "", e.report i.debug⟩, after) := by
  rw [runIn, run, h]
  dsimp only
  rw [StateT.run_bind, ← performIn]
  obtain ⟨_ | _, _⟩ := performIn d i.perform <;> rfl

/-- All that a command asks for can be done. -/
def Feasible (d : Directory) (arguments : List String) (setting? : Option String) : Prop :=
  ∃ i artifact, Invocation.ofArguments arguments setting? = .ok i ∧
    i.produce d = .ok artifact ∧ i.CanDeliver d

/-- What a run can come to. -/
theorem runIn_cases (h : runIn d arguments setting? = (outcome, after)) :
    (∃ i artifact printed, Invocation.ofArguments arguments setting? = .ok i ∧
      i.produce d = .ok artifact ∧ Delivers artifact d i.output printed after ∧
      outcome = ⟨0, printed, ""⟩) ∨
    ¬Feasible d arguments setting? ∧ outcome.status ≠ 0 ∧ outcome.output = "" ∧ after = d := by
  cases hi : Invocation.ofArguments arguments setting? with
  | error e =>
    rw [runIn_of_usage hi] at h
    cases h
    refine .inr ⟨?_, (by decide : (2 : UInt32) ≠ 0), rfl, rfl⟩
    rintro ⟨i, -, hi', -⟩
    cases hi.symm.trans hi'
  | ok i =>
    rw [runIn_of_invocation hi, i.performIn_perform] at h
    cases hproduce : i.produce d with
    | error e =>
      rw [hproduce] at h
      cases h
      refine .inr ⟨?_, (by decide : (1 : UInt32) ≠ 0), rfl, rfl⟩
      rintro ⟨i', artifact, hi', hproduce', -⟩
      cases hi.symm.trans hi'
      cases hproduce.symm.trans hproduce'
    | ok artifact =>
      rw [hproduce] at h
      dsimp only at h
      obtain ⟨printed, after', hdeliver, delivers⟩ | ⟨cannot, e, hdeliver⟩ :=
        i.deliver_cases d artifact
      · rw [hdeliver] at h
        cases h
        exact .inl ⟨i, artifact, printed, rfl, hproduce, delivers, rfl⟩
      · rw [hdeliver] at h
        cases h
        refine .inr ⟨?_, (by decide : (1 : UInt32) ≠ 0), rfl, rfl⟩
        rintro ⟨i', artifact', hi', -, can⟩
        cases hi.symm.trans hi'
        exact cannot can

/-- A run succeeds exactly if all that is asked for can be done. -/
theorem status_eq_zero_iff (h : runIn d arguments setting? = (outcome, after)) :
    outcome.status = 0 ↔ Feasible d arguments setting? := by
  obtain ⟨i, artifact, printed, hi, hproduce, delivers, rfl⟩ | ⟨hnot, hne, -⟩ := runIn_cases h
  · exact iff_of_true rfl ⟨i, artifact, hi, hproduce, i.canDeliver_of_delivers delivers⟩
  · exact iff_of_false hne hnot

/-- A command can be made to stop earlier. -/
theorem status_eq_zero_of_stage_le {i : Invocation} {arguments' : List String} {e : Emit}
    (h : runIn d arguments setting? = (outcome, after)) (hstatus : outcome.status = 0)
    (hi : Invocation.ofArguments arguments setting? = .ok i)
    (hi' : Invocation.ofArguments arguments' setting? = .ok { i with emit := e })
    (hstage : e.stage ≤ i.emit.stage) : (runIn d arguments' setting?).1.status = 0 := by
  obtain ⟨_, artifact, hi'', hproduce, can⟩ := (status_eq_zero_iff h).1 hstatus
  cases hi.symm.trans hi''
  obtain ⟨source, hread, hemits⟩ := Invocation.produce_eq_ok_iff.1 hproduce
  obtain ⟨artifact', hemits'⟩ := hemits.exists_of_stage_le hstage
  have hproduce' : Invocation.produce { i with emit := e } d = .ok artifact' :=
    Invocation.produce_eq_ok_iff.2 ⟨source, hread, hemits'⟩
  exact (status_eq_zero_iff rfl).2 ⟨_, artifact', hi', hproduce', can⟩

end runIn

/-- **A run does all or nothing.** If it fails, it prints nothing and leaves every file as it was.
It succeeds exactly if it reports no error and delivers the whole of what was asked for. Then a run
on the same files also succeeds if its command line asks for the same up to an earlier stage, such
as one with another value for what to emit. -/
theorem run_all_or_nothing {d after : Directory} {arguments : List String}
    {setting? : Option String} {outcome : Outcome}
    (h : runIn d arguments setting? = (outcome, after)) :
    (outcome.status ≠ 0 → outcome.output = "" ∧ after = d) ∧
    (outcome.status = 0 ↔ outcome.errors = "" ∧ ∃ i source artifact,
      Invocation.ofArguments arguments setting? = .ok i ∧
      d.read i.input = .ok source.toUTF8 ∧ Emits source i.target i.emit artifact ∧
      Delivers artifact d i.output outcome.output after) ∧
    (outcome.status = 0 → ∀ (i : Invocation) (e : Emit) (arguments' : List String),
      Invocation.ofArguments arguments setting? = .ok i →
      Invocation.ofArguments arguments' setting? = .ok { i with emit := e } →
      e.stage ≤ i.emit.stage → (runIn d arguments' setting?).1.status = 0) ∧
    (outcome.status = 0 → ∀ (e e' : Emit) (option option' before more : List String),
      option ∈ e.options → option' ∈ e'.options → "--" ∉ before →
      arguments = before ++ (option ++ more) →
      e'.stage ≤ e.stage → (runIn d (before ++ (option' ++ more)) setting?).1.status = 0) := by
  refine ⟨fun hstatus => ?_, ⟨fun hstatus => ?_, ?_⟩, ?_, ?_⟩
  · obtain ⟨_, _, _, _, _, _, rfl⟩ | ⟨-, -, houtput, hafter⟩ := runIn_cases h
    · exact absurd rfl hstatus
    · exact ⟨houtput, hafter⟩
  · obtain ⟨i, artifact, printed, hi, hproduce, delivers, rfl⟩ | ⟨-, hne, -⟩ := runIn_cases h
    · obtain ⟨source, hread, hemits⟩ := Invocation.produce_eq_ok_iff.1 hproduce
      exact ⟨rfl, i, source, artifact, hi, hread, hemits, delivers⟩
    · exact absurd hstatus hne
  · rintro ⟨-, i, source, artifact, hi, hread, hemits, delivers⟩
    refine (status_eq_zero_iff h).2 ⟨i, artifact, hi, ?_, i.canDeliver_of_delivers delivers⟩
    exact Invocation.produce_eq_ok_iff.2 ⟨source, hread, hemits⟩
  · intro hstatus i e arguments' hi hi' hstage
    exact status_eq_zero_of_stage_le h hstatus hi hi' hstage
  · rintro hstatus e e' option option' before more hoption hoption' hbefore rfl hstage
    obtain ⟨i, -, hi, -⟩ := (status_eq_zero_iff h).1 hstatus
    obtain ⟨rfl, hi'⟩ := Invocation.ofArguments_replace hoption hoption' hbefore hi
    exact status_eq_zero_of_stage_le h hstatus hi hi' hstage

/-- A directory with a program and a file that is none. -/
def sampleDirectory : Directory :=
  ⟨[("notes", "none".toUTF8), ("a", "main() \x7b\n\treturn 0\n\x7d\n".toUTF8)]⟩

/-- A program is replaced by its code, under another path of the same file. It could be replaced by
its tokens or its tree as well, but not by the code of the file that is no program. -/
theorem run_all_or_nothing_in_place :
    (runIn sampleDirectory ["--emit", "code", "a", "./a"] none).1 = ⟨0, "", ""⟩ ∧
    (∃ i source artifact, Invocation.ofArguments ["--emit", "code", "a", "./a"] none = .ok i ∧
      sampleDirectory.read i.input = .ok source.toUTF8 ∧ Emits source i.target i.emit artifact ∧
      Delivers artifact sampleDirectory i.output ""
        (runIn sampleDirectory ["--emit", "code", "a", "./a"] none).2) ∧
    (runIn sampleDirectory ["--emit=tokens", "a", "./a"] none).1.status = 0 ∧
    (runIn sampleDirectory ["a", "--emit=tree", "--", "./a"] none).1.status = 0 ∧
    runIn sampleDirectory ["--emit", "code", "notes", "a"] none =
      (⟨1, "", "Unexpected end of input\n"⟩, sampleDirectory) := by
  have hdone : (runIn sampleDirectory ["--emit", "code", "a", "./a"] none).1 = ⟨0, "", ""⟩ := by
    decide +kernel
  have hfailed : (runIn sampleDirectory ["--emit", "code", "notes", "a"] none).1 =
      ⟨1, "", "Unexpected end of input\n"⟩ := by
    decide +kernel
  obtain ⟨-, hall, hstop, hreplace⟩ := run_all_or_nothing (Prod.ext hdone rfl)
  obtain ⟨hnothing, -⟩ := run_all_or_nothing (Prod.ext hfailed rfl)
  refine ⟨hdone, (hall.1 rfl).2, ?_, ?_, Prod.ext hfailed (hnothing (by decide)).2⟩
  · exact hreplace rfl .code .tokens ["--emit", "code"] ["--emit=tokens"] [] ["a", "./a"]
      (by decide) (by decide) (by decide) rfl (by decide)
  · exact hstop rfl ⟨"a", some "./a", .javaScript, .code, false⟩ .tree
      ["a", "--emit=tree", "--", "./a"] (by decide +kernel) (by decide +kernel) (by decide)

end Tabscript
