/-
How the client is started: its command line, and what `main` makes of it.

`do_processArguments` goes through the options as `ACE_Get_Opt` finds them, with one stream that
turns texts into numbers.  `main` looks at what has come of it, and either gives up, prints the
version, or goes to work with a client in the mode that was asked for.

What an address is, which files can be read, and whether the log and the signals can be set up is
not for this program to say; it is the `Environment`.  Of the work only what it starts with is
here.
-/
import Mpu6050.Client.Queues
import Mpu6050.Lib.Streams

namespace Mpu6050.Client

open Streams

/-- What `argumentParser ()` returns, with `opt_arg ()` where the option has one. -/
inductive CommandOption
  | c
  | g (arg : String)
  | l
  | r
  | s (arg : String)
  | t
  | u (arg : Option String)
  | v
  /-- `':'` -/
  | missingArgument
  /-- `'?'` -/
  | unrecognized
  /-- `0` -/
  | longOption
  /-- anything else -/
  | parseError
deriving DecidableEq

/-- What the program finds outside, with `Addr` for `ACE_INET_Addr`. -/
structure Environment (Addr : Type) where
  /-- `OLIMEX_MOD_MPU6050_DEFAULT_NETLINK_GROUP` -/
  defaultNetlinkGroup : Nat
  /-- `peer_address` to begin with -/
  anyAddress : Addr
  /-- `set (address, 0)`: address and port -/
  set : String → Option Addr
  /-- `set (OLIMEX_MOD_MPU6050_DEFAULT_PORT, address, 1, 0)` -/
  setHost : String → Option Addr
  /-- The definition file below the working directory. -/
  definitionFile : String
  isReadable : String → Bool
  /-- Steps 3 and 4 of `main`, which set up the log and the signals, succeed. -/
  prepared : Bool

/-- The results of `do_processArguments`. -/
structure Arguments (Addr : Type) where
  clientMode : Bool
  netlinkGroup : Nat
  logToFile : Bool
  useReactor : Bool
  peerAddress : Addr
  traceInformation : Bool
  interfaceDefinitionFile : String
  printVersionAndExit : Bool

variable {Addr : Type}

/-- The results before the first option. -/
def defaultArguments (env : Environment Addr) : Arguments Addr :=
  { clientMode := false
    netlinkGroup := env.defaultNetlinkGroup
    logToFile := false
    useReactor := false
    peerAddress := env.anyAddress
    traceInformation := false
    interfaceDefinitionFile := env.definitionFile
    printVersionAndExit := false }

/-- The greatest `unsigned int`. -/
def unsignedMax : Nat := 4294967295

/-- What `-s` makes of its argument. -/
def Environment.address (env : Environment Addr) (arg : String) : Option Addr :=
  if ':' ∈ arg.toList then env.set arg else env.setHost arg

/-- One turn of the loop, unless it returns `false`: the stream, and the results so far. -/
def processOption (env : Environment Addr) (converter : Stream) (args : Arguments Addr) :
    CommandOption → Option (Stream × Arguments Addr)
  | .c => some (converter, { args with clientMode := true })
  | .g arg =>
    let (converter, netlinkGroup) :=
      (converter.str arg.toList).extract unsignedMax args.netlinkGroup
    some (converter, { args with netlinkGroup })
  | .l => some (converter, { args with logToFile := true })
  | .r => some (converter, { args with useReactor := true })
  | .s arg => (env.address arg).map fun peerAddress => (converter, { args with peerAddress })
  | .t => some (converter, { args with traceInformation := true })
  | .u arg => some (converter, { args with interfaceDefinitionFile := arg.getD "" })
  | .v => some (converter, { args with printVersionAndExit := true })
  | .missingArgument | .unrecognized | .longOption | .parseError => none

/-- The loop over the options. -/
def processOptions (env : Environment Addr) (converter : Stream) (args : Arguments Addr) :
    List CommandOption → Bool × Arguments Addr
  | [] => (true, args)
  | option :: options =>
    match processOption env converter args option with
    | none => (false, args)
    | some (converter, args) => processOptions env converter args options

/-- `do_processArguments` -/
def processArguments (env : Environment Addr) (options : List CommandOption) :
    Bool × Arguments Addr :=
  processOptions env empty (defaultArguments env) options

/-- What `do_work` is given, and the client it works with. -/
structure Work (Addr : Type) where
  useReactor : Bool
  peerAddress : Addr
  netlinkGroups : Nat
  client : ClientState

/-- What `main` comes to. -/
inductive Start (Addr : Type)
  | failure
  | version
  | work (work : Work Addr)

/-- Step 2 of `main` finds nothing wrong with the results. -/
def Arguments.valid (env : Environment Addr) (args : Arguments Addr) : Bool :=
  !((args.interfaceDefinitionFile != "" && !env.isReadable args.interfaceDefinitionFile) ||
    (args.netlinkGroup == 0 || 32 < args.netlinkGroup))

/--
`main`, to where it calls `do_work`.  The netlink group is a bit of the address, or its number in
client mode; the bias is cleared, and without a definition file there is only the console.
-/
def aceTmain (env : Environment Addr) (options : List CommandOption) : Start Addr :=
  match processArguments env options with
  | (false, _) => .failure
  | (true, args) =>
    if !args.valid env then .failure
    else if !env.prepared then .failure
    else if args.printVersionAndExit then .version
    else .work
      { useReactor := args.useReactor
        peerAddress := args.peerAddress
        netlinkGroups :=
          if args.clientMode then args.netlinkGroup else 1 <<< (args.netlinkGroup - 1)
        client := initialState (args.interfaceDefinitionFile == "") args.clientMode zeroBias }

end Mpu6050.Client
