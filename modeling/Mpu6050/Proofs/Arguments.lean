/-
What a command line comes to.

Each option is taken for itself, and so the loop can be read off as a whole (`Arguments.after`):
a flag is set if it is there anywhere, and the last `-s` and the last `-u` count.  Only the `-g`s
share something, the stream, and nothing clears it.  So of these the first counts whose argument
ends with its number, and those after it are not looked at (`command_line`).
-/
import Mpu6050.Client.Arguments

namespace Mpu6050.Client

open Streams

variable {Addr : Type}

/-- An option that does not end the loop. -/
def CommandOption.Accepted (env : Environment Addr) : CommandOption → Prop
  | .s arg => (env.address arg).isSome
  | .missingArgument | .unrecognized | .longOption | .parseError => False
  | _ => True

/-- The argument of `-g` -/
def CommandOption.group : CommandOption → Option (List Char)
  | .g arg => some arg.toList
  | _ => none

/-- The address of `-s` -/
def CommandOption.address (env : Environment Addr) : CommandOption → Option Addr
  | .s arg => env.address arg
  | _ => none

/-- The file of `-u`, the empty one if it has no argument. -/
def CommandOption.file : CommandOption → Option String
  | .u arg => some (arg.getD "")
  | _ => none

/-- What accepted options make of the results. -/
def Arguments.after (env : Environment Addr) (converter : Stream) (args : Arguments Addr)
    (options : List CommandOption) : Arguments Addr :=
  { clientMode := args.clientMode || decide (.c ∈ options)
    netlinkGroup := (converter.extractAll unsignedMax args.netlinkGroup
      (options.filterMap CommandOption.group)).2
    logToFile := args.logToFile || decide (.l ∈ options)
    useReactor := args.useReactor || decide (.r ∈ options)
    peerAddress := (options.filterMap (CommandOption.address env)).getLast?.getD args.peerAddress
    traceInformation := args.traceInformation || decide (.t ∈ options)
    interfaceDefinitionFile :=
      (options.filterMap CommandOption.file).getLast?.getD args.interfaceDefinitionFile
    printVersionAndExit := args.printVersionAndExit || decide (.v ∈ options) }

/-! ### The loop -/

theorem processOption_isSome (env : Environment Addr) (converter : Stream) (args : Arguments Addr)
    (option : CommandOption) :
    (processOption env converter args option).isSome ↔ option.Accepted env := by
  cases option with
  | s arg => simp [processOption, CommandOption.Accepted]
  | c | g | l | r | t | u | v => simp [processOption, CommandOption.Accepted]
  | missingArgument | unrecognized | longOption | parseError =>
      simp [processOption, CommandOption.Accepted]

/-- What one option has done, the results tell the options after it. -/
theorem after_cons {env : Environment Addr} {converter converter' : Stream}
    {args args' : Arguments Addr} {option : CommandOption}
    (h : processOption env converter args option = some (converter', args'))
    (options : List CommandOption) :
    args'.after env converter' options = args.after env converter (option :: options) := by
  unfold Arguments.after
  cases option with
  | s arg =>
      obtain ⟨addr, haddr, hpair⟩ := Option.map_eq_some_iff.mp h
      obtain ⟨rfl, rfl⟩ := Prod.mk.inj hpair
      simp [CommandOption.address, CommandOption.group, CommandOption.file, List.filterMap_cons,
        List.getLast?_cons, haddr]
  | g arg =>
      have hpair : (((converter.str arg.toList).extract unsignedMax args.netlinkGroup).1,
          { args with netlinkGroup :=
            ((converter.str arg.toList).extract unsignedMax args.netlinkGroup).2 })
            = (converter', args') := Option.some.inj h
      obtain ⟨rfl, rfl⟩ := Prod.mk.inj hpair
      simp [CommandOption.address, CommandOption.group, CommandOption.file, List.filterMap_cons,
        Stream.extractAll]
  | c | l | r | t | u | v =>
      obtain ⟨rfl, rfl⟩ := Prod.mk.inj (Option.some.inj h)
      simp [CommandOption.address, CommandOption.group, CommandOption.file, List.filterMap_cons,
        List.getLast?_cons]
  | missingArgument | unrecognized | longOption | parseError => cases h

/-- **The loop as a whole.** -/
theorem processOptions_after (env : Environment Addr) (options : List CommandOption)
    (converter : Stream) (args : Arguments Addr) :
    ((processOptions env converter args options).1 = true ↔
        ∀ option ∈ options, option.Accepted env) ∧
      ((processOptions env converter args options).1 = true →
        (processOptions env converter args options).2 = args.after env converter options) := by
  induction options generalizing converter args with
  | nil => simp [processOptions, Arguments.after, Stream.extractAll]
  | cons option options ih =>
      have haccepted := processOption_isSome env converter args option
      unfold processOptions
      cases hoption : processOption env converter args option with
      | none =>
          rw [hoption] at haccepted
          have hnot : ¬option.Accepted env := fun h => Bool.false_ne_true (haccepted.mpr h)
          simp [hnot]
      | some next =>
          obtain ⟨converter', args'⟩ := next
          rw [hoption] at haccepted
          have hyes : option.Accepted env := haccepted.mp rfl
          obtain ⟨hiff, hafter⟩ := ih converter' args'
          refine ⟨?_, ?_⟩
          · rw [List.forall_mem_cons]
            exact hiff.trans (by simp [hyes])
          · intro hdone
            rw [← after_cons hoption]
            exact hafter hdone

/-! ### What counts -/

/-- The group that is asked for. -/
def chosenGroup (env : Environment Addr) (options : List CommandOption) : Nat :=
  settled unsignedMax env.defaultNetlinkGroup (options.filterMap CommandOption.group)

/-- The file that is asked for. -/
def chosenFile (env : Environment Addr) (options : List CommandOption) : String :=
  (options.filterMap CommandOption.file).getLast?.getD env.definitionFile

/-- The address that is asked for. -/
def chosenAddress (env : Environment Addr) (options : List CommandOption) : Addr :=
  (options.filterMap (CommandOption.address env)).getLast?.getD env.anyAddress

/-- What `main` goes to work with. -/
def chosenWork (env : Environment Addr) (options : List CommandOption) : Work Addr :=
  { useReactor := decide (.r ∈ options)
    peerAddress := chosenAddress env options
    netlinkGroups :=
      if .c ∈ options then chosenGroup env options else 1 <<< (chosenGroup env options - 1)
    client := initialState (decide (chosenFile env options = "")) (decide (.c ∈ options)) zeroBias }

theorem after_group (env : Environment Addr) (options : List CommandOption) :
    ((defaultArguments env).after env empty options).netlinkGroup = chosenGroup env options :=
  extractAll_of_good rfl _ _

theorem processArguments_accepted {env : Environment Addr} {options : List CommandOption}
    (h : ∀ option ∈ options, option.Accepted env) :
    processArguments env options = (true, (defaultArguments env).after env empty options) := by
  obtain ⟨hiff, hafter⟩ := processOptions_after env options empty (defaultArguments env)
  exact Prod.ext (hiff.mpr h) (hafter (hiff.mpr h))

theorem valid_iff (env : Environment Addr) (args : Arguments Addr) :
    args.valid env = true ↔
      (args.interfaceDefinitionFile = "" ∨ env.isReadable args.interfaceDefinitionFile = true) ∧
        0 < args.netlinkGroup ∧ args.netlinkGroup ≤ 32 := by
  simp [Arguments.valid, Nat.pos_iff_ne_zero]

/-- The work that `main` makes of the results. -/
theorem chosenWork_eq (env : Environment Addr) (options : List CommandOption) :
    let args := (defaultArguments env).after env empty options
    chosenWork env options =
      { useReactor := args.useReactor
        peerAddress := args.peerAddress
        netlinkGroups :=
          if args.clientMode then args.netlinkGroup else 1 <<< (args.netlinkGroup - 1)
        client := initialState (args.interfaceDefinitionFile == "") args.clientMode zeroBias } := by
  intro args
  have hmode : args.clientMode = decide (.c ∈ options) := rfl
  have hreactor : args.useReactor = decide (.r ∈ options) := rfl
  have hfile : args.interfaceDefinitionFile = chosenFile env options := rfl
  have hgroup : args.netlinkGroup = chosenGroup env options := after_group env options
  unfold chosenWork
  rw [hmode, hreactor, hfile, hgroup, beq_eq_decide]
  simp only [decide_eq_true_eq]
  rfl

theorem aceTmain_accepted {env : Environment Addr} {options : List CommandOption}
    (h : ∀ option ∈ options, option.Accepted env) (work : Work Addr) :
    aceTmain env options = .work work ↔
      ((defaultArguments env).after env empty options).valid env = true ∧ env.prepared = true ∧
        .v ∉ options ∧ work = chosenWork env options := by
  have hversion : ((defaultArguments env).after env empty options).printVersionAndExit
      = decide (.v ∈ options) := rfl
  unfold aceTmain
  rw [processArguments_accepted h, chosenWork_eq]
  simp only [hversion]
  cases ((defaultArguments env).after env empty options).valid env with
  | false => simp
  | true =>
      cases env.prepared with
      | false => simp
      | true =>
          by_cases hv : CommandOption.v ∈ options
          · simp [hv]
          · simp only [hv, decide_false, Bool.not_true, Bool.false_eq_true, if_false,
              not_false_eq_true, true_and, Start.work.injEq]
            exact eq_comm

theorem aceTmain_rejected {env : Environment Addr} {options : List CommandOption}
    (h : ¬∀ option ∈ options, option.Accepted env) : aceTmain env options = .failure := by
  have hfalse : (processArguments env options).1 = false := by
    rw [← Bool.not_eq_true]
    exact fun htrue => h ((processOptions_after env options empty _).1.mp htrue)
  unfold aceTmain
  split
  · rfl
  · next args heq =>
      rw [heq] at hfalse
      cases hfalse

/--
**What a command line comes to.**  For every list of options: the client is put to work just if
every option is known and each address is one, the version is not asked for, the file can be read
unless there is none, and the group is one of 32.  Then a flag is set that is there anywhere,
and of the addresses and files the last counts.  But of the groups the first one counts that
leaves the stream at an end: a text that ends with its number, or one that has none and so makes
the group 0.  Whatever group is asked for after it, a number written out counts if no text before
it was such a one.
-/
theorem command_line (env : Environment Addr) (options : List CommandOption) :
    (∀ work, aceTmain env options = .work work ↔
      work = chosenWork env options ∧ (∀ option ∈ options, option.Accepted env) ∧
        .v ∉ options ∧ env.prepared = true ∧
        (chosenFile env options = "" ∨ env.isReadable (chosenFile env options) = true) ∧
        0 < chosenGroup env options ∧ chosenGroup env options ≤ 32) ∧
      ∀ before n after,
        options.filterMap CommandOption.group = before ++ (toString n).toList :: after →
        (∀ text ∈ before, ¬Settles unsignedMax text) → n ≤ unsignedMax →
        chosenGroup env options = n := by
  refine ⟨fun work => ?_, fun before n after hgroups hbefore hn => ?_⟩
  · by_cases haccepted : ∀ option ∈ options, option.Accepted env
    · rw [aceTmain_accepted haccepted, valid_iff, after_group]
      constructor
      · rintro ⟨⟨hfile, hgroup⟩, hprepared, hversion, rfl⟩
        exact ⟨rfl, haccepted, hversion, hprepared, hfile, hgroup⟩
      · rintro ⟨rfl, -, hversion, hprepared, hfile, hgroup⟩
        exact ⟨⟨hfile, hgroup⟩, hprepared, hversion, rfl⟩
    · rw [aceTmain_rejected haccepted]
      exact ⟨nofun, fun h => absurd h.2.1 haccepted⟩
  · unfold chosenGroup
    rw [hgroups, Nat.toString_eq_repr, Nat.toList_repr]
    exact settled_toDigits hbefore hn after _

/-- Group 3, though group 5 is asked for last. -/
theorem command_line_first :
    ∃ (env : Environment Unit) (work : Work Unit),
      aceTmain env [.g "3", .u none, .g "5"] = .work work ∧ work.netlinkGroups = 4 ∧
        work.client.consoleMode = true := by
  let env : Environment Unit :=
    { defaultNetlinkGroup := 1
      anyAddress := ()
      set := fun _ => none
      setHost := fun _ => none
      definitionFile := "etc/olimex_mod_mpu6050.gtk2"
      isReadable := fun _ => false
      prepared := true }
  obtain ⟨hwork, hfirst⟩ := command_line env [.g "3", .u none, .g "5"]
  have hgroup : chosenGroup env [.g "3", .u none, .g "5"] = 3 :=
    hfirst [] 3 ["5".toList] (by decide) nofun (by decide)
  have haccepted : ∀ option ∈ [CommandOption.g "3", .u none, .g "5"], option.Accepted env := by
    simp [CommandOption.Accepted]
  refine ⟨env, chosenWork env [.g "3", .u none, .g "5"], (hwork _).mpr ?_, ?_, rfl⟩
  · exact ⟨rfl, haccepted, by decide, rfl, Or.inl rfl, by omega, by omega⟩
  · simp [chosenWork, hgroup]

end Mpu6050.Client
