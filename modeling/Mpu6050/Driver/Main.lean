/-
`i2c_mpu6050_probe` and `i2c_mpu6050_remove`, with the init and fini functions they call.

What is followed here is what the driver holds: every kernel call that hands out
something of the kernel's is an acquisition, every call that gives it back a release,
each with the arguments that identify it.  The results of the kernel calls are given
(`Outcomes`), in the convention of the call: a pointer that may be `NULL` is a `Bool`, one
that may be an `ERR_PTR` an `Option Errno`, a status an `Int` with 0 for success.

`probe` is one long function with a ladder of labels.  It is cut here at its calls, each
part going on to the next, and the labels are functions that fall through to the one below.
A `NULL` that is dereferenced ends the run: the result is `none`.
-/
import Mpu6050.Driver.Threads
import Mpu6050.Driver.Types
import Mpu6050.Lib.Unwind

namespace Mpu6050

open Unwind

/-- The `dev_id` of an interrupt handler: `&client->dev`, or `NULL`. -/
inductive DevId
  | device
  | null
deriving DecidableEq

/-- What the kernel hands out and takes back. -/
inductive Resource
  | clientData
  | gpioLed
  | binFile
  | workqueue
  | timer
  | pinctrl
  | gpioInt
  | irqAction (irq : Int) (devId : DevId)
  /-- what `gpio_export` would have taken -/
  | gpioExport
  /-- what `gpio_request` would have taken -/
  | gpioNumber
  | netlinkServer
  | netlinkSocket
  /-- the family, with the operations registered along with it -/
  | netlinkFamily
  /-- `i2c_mpu6050_netlink_operation_record`, which `genl_register_ops` would have taken -/
  | operationRecord
  | netlinkGroup
  | server
  | thread (f : Forwarder)
  /-- the `task_struct` itself, which belongs to the kernel -/
  | taskStruct (f : Forwarder)
deriving DecidableEq

/-- The results of the kernel calls. -/
structure Outcomes where
  /-- `client->irq` as the bus has set it -/
  clientIrq : Int
  checkFunctionality : Bool
  gpioLedIsValid : Bool
  kzallocClientData : Bool
  scriptParserFetch : Int
  gpioRequestLed : Bool
  sysfsCreateBinFile : Int
  devicePing : Int
  deviceInit : Int
  createWorkqueue : Bool
  hrtimerStart : Int
  gpioIntIsValid : Bool
  pinctrlGet : Option Errno
  pinctrlLookupState : Option Errno
  pinctrlSelectState : Int
  gpioRequestInt : Bool
  gpioToIrq : Int
  requestIrq : Int
  kzallocNetlinkServer : Bool
  netlinkKernelCreate : Bool
  registerFamily : Int
  registerGroup : Int
  kthreadRunNetlink : Option Errno
  kzallocServer : Bool
  kthreadRunServer : Option Errno
  sendSig : Forwarder → Int

/-- `struct i2c_mpu6050_netlink_server_t`: whether its two pointers are set. -/
structure NetlinkServer where
  socket : Bool
  thread : Bool

/-- `struct i2c_mpu6050_server_t`: whether its thread is set. -/
structure Server where
  thread : Bool

/-- The handles the driver keeps, and what it holds. -/
structure Handles where
  /-- `client->irq` -/
  irq : Int
  workqueue : Bool
  netlinkServer : Option NetlinkServer
  server : Option Server
  held : Account Resource

/-- Nothing is held yet, and the record is going to come zeroed. -/
def Handles.zero (irq : Int) : Handles :=
  { irq := irq, workqueue := false, netlinkServer := none, server := none, held := some [] }

def Handles.acquire (r : Resource) (s : Handles) : Handles :=
  { s with held := Unwind.acquire r s.held }

def Handles.release (r : Resource) (s : Handles) : Handles :=
  { s with held := Unwind.release r s.held }

/-- A handle that is `NULL` is passed on. -/
def Handles.passNull (s : Handles) : Handles := { s with held := none }

/-! ### sysfs -/

/-- `i2c_mpu6050_sysfs_init` -/
def sysfsInit (o : Outcomes) (s : Handles) : Int × Handles :=
  if o.sysfsCreateBinFile ≠ 0 then (o.sysfsCreateBinFile, s) else (0, s.acquire .binFile)

/-- `i2c_mpu6050_sysfs_fini` -/
def sysfsFini (s : Handles) : Handles := s.release .binFile

/-! ### Work queue -/

/-- `i2c_mpu6050_wq_init`.  The result of `create_singlethread_workqueue` is tested with
`IS_ERR`, which is false of `NULL`. -/
def wqInit (o : Outcomes) (s : Handles) : Int × Handles :=
  if s.workqueue then (0, s)
  else if o.createWorkqueue then (0, { s.acquire .workqueue with workqueue := true })
  else (0, s)

/-- `i2c_mpu6050_wq_fini` -/
def wqFini (s : Handles) : Handles :=
  if s.workqueue then s.release .workqueue else s.passNull

/-! ### Timer -/

/-- `i2c_mpu6050_timer_init` -/
def timerInit (o : Outcomes) (s : Handles) : Int × Handles :=
  if o.hrtimerStart ≠ 0 then (o.hrtimerStart, s) else (0, s.acquire .timer)

/-- `i2c_mpu6050_timer_fini` -/
def timerFini (s : Handles) : Handles := s.release .timer

/-! ### Interrupt -/

/-- `error1` of `i2c_mpu6050_irq_init` -/
def irqError1 (s : Handles) : Handles := s.release .pinctrl

/-- `error4` of `i2c_mpu6050_irq_init`, and `error5`, which falls through to it -/
def irqError4 (s : Handles) : Handles :=
  irqError1 (((s.release .gpioExport).release .gpioNumber).release .gpioInt)

/-- `i2c_mpu6050_irq_init` -/
def irqInit (o : Outcomes) (s : Handles) : Int × Handles :=
  if o.gpioIntIsValid = false then (einval, s)
  else
    match o.pinctrlGet with
    | some err => (err, s)
    | none =>
      let s := s.acquire .pinctrl
      match o.pinctrlLookupState with
      | some err => (err, irqError1 s)
      | none =>
        if o.pinctrlSelectState ≠ 0 then (o.pinctrlSelectState, irqError1 s)
        else if o.gpioRequestInt = false then (enosys, irqError1 s)
        else
          let s := { s.acquire .gpioInt with irq := o.gpioToIrq }
          if s.irq < 0 then (s.irq, irqError4 s)
          else if o.requestIrq ≠ 0 then (o.requestIrq, irqError4 s)
          else (0, s.acquire (.irqAction s.irq .device))

/-- `i2c_mpu6050_irq_fini` -/
def irqFini (s : Handles) : Handles :=
  ((((s.release (.irqAction s.irq .null)).release .gpioExport).release .gpioNumber).release
    .gpioInt).release .pinctrl

/-! ### Netlink -/

/-- `netlink_kernel_release (netlink_server->socket)` -/
def netlinkKernelRelease (s : Handles) : Handles :=
  match s.netlinkServer with
  | some { socket := true, .. } => s.release .netlinkSocket
  | _ => s.passNull

/-- `kfree (netlink_server); netlink_server = NULL;` -/
def freeNetlinkServer (s : Handles) : Handles :=
  { s.release .netlinkServer with netlinkServer := none }

/-- `error2` of `i2c_mpu6050_netlink_init` -/
def netlinkError2 (s : Handles) : Handles := freeNetlinkServer (netlinkKernelRelease s)

/-- `error4` of `i2c_mpu6050_netlink_init` -/
def netlinkError4 (s : Handles) : Handles :=
  netlinkError2 ((s.release .operationRecord).release .netlinkFamily)

/-- `error5` of `i2c_mpu6050_netlink_init` -/
def netlinkError5 (s : Handles) : Handles := netlinkError4 (s.release .netlinkGroup)

/-- `i2c_mpu6050_netlink_init`.  Both pointers that may be `NULL` are tested with `IS_ERR`; the
record is written to next, the socket is not. -/
def netlinkInit (o : Outcomes) (s : Handles) : Option (Int × Handles) :=
  if s.netlinkServer.isSome then some (0, s)
  else if o.kzallocNetlinkServer = false then none
  else
    let s := s.acquire .netlinkServer
    let s := if o.netlinkKernelCreate then s.acquire .netlinkSocket else s
    let s := { s with netlinkServer := some { socket := o.netlinkKernelCreate, thread := false } }
    if o.registerFamily ≠ 0 then some (o.registerFamily, netlinkError2 s)
    else
      let s := s.acquire .netlinkFamily
      if o.registerGroup ≠ 0 then some (o.registerGroup, netlinkError4 s)
      else
        let s := s.acquire .netlinkGroup
        match o.kthreadRunNetlink with
        | some err => some (err, netlinkError5 s)
        | none =>
          some (0, { s.acquire (.thread .netlink) with
            netlinkServer := some { socket := o.netlinkKernelCreate, thread := true } })

/-- The end of a thread, in either `fini`: the signal, the wait, and `kfree (thread)`. -/
def stopThread (sendSig : Forwarder → Int) (f : Forwarder) (s : Handles) : Handles :=
  if sendSig f < 0 then s else (s.release (.thread f)).release (.taskStruct f)

/-- `i2c_mpu6050_netlink_fini` -/
def netlinkFini (sendSig : Forwarder → Int) (s : Handles) : Handles :=
  match s.netlinkServer with
  | none => s
  | some netlinkServer =>
    let s := if netlinkServer.thread then stopThread sendSig .netlink s else s
    freeNetlinkServer (netlinkKernelRelease ((s.release .netlinkGroup).release .netlinkFamily))

/-! ### Server -/

/-- `kfree (server); server = NULL;` -/
def freeServer (s : Handles) : Handles := { s.release .server with server := none }

/-- `i2c_mpu6050_server_init` -/
def serverInit (p : Params) (o : Outcomes) (s : Handles) : Option (Int × Handles) :=
  if p.peer = 0 ∨ p.port < 0 then some (einval, s)
  else if s.server.isSome then some (0, s)
  else if o.kzallocServer = false then none
  else
    let s := s.acquire .server
    match o.kthreadRunServer with
    | some err => some (err, freeServer s)
    | none => some (0, { s.acquire (.thread .server) with server := some { thread := true } })

/-- `i2c_mpu6050_server_fini` -/
def serverFini (sendSig : Forwarder → Int) (s : Handles) : Handles :=
  match s.server with
  | none => s
  | some server => freeServer (if server.thread then stopThread sendSig .server s else s)

/-! ### The labels of `i2c_mpu6050_probe` -/

def error2 (s : Handles) : Handles := s.release .clientData

def error5 (s : Handles) : Handles := error2 (s.release .gpioLed)

def error6 (s : Handles) : Handles := error5 (sysfsFini s)

/-- `i2c_mpu6050_device_fini` talks to the chip and gives nothing back. -/
def error7 (s : Handles) : Handles := error6 s

def error8 (s : Handles) : Handles := error7 (wqFini s)

def error9 (p : Params) (s : Handles) : Handles :=
  error8 (if p.noirq ≠ 0 then timerFini s else irqFini s)

def error10 (p : Params) (o : Outcomes) (s : Handles) : Handles :=
  error9 p (if p.nonetlink = 0 then netlinkFini o.sendSig s else s)

/-! ### `i2c_mpu6050_probe` -/

/-- The timer or the interrupt, by the parameter. -/
def triggerInit (p : Params) (o : Outcomes) (s : Handles) : Int × Handles :=
  if p.noirq ≠ 0 then timerInit o s else irqInit o s

/-- Netlink, if it is enabled. -/
def netlinkStart (p : Params) (o : Outcomes) (s : Handles) : Option (Int × Handles) :=
  if p.nonetlink = 0 then netlinkInit o s else some (0, s)

/-- The server, if it is enabled. -/
def serverStart (p : Params) (o : Outcomes) (s : Handles) : Option (Int × Handles) :=
  if p.noserver = 0 then serverInit p o s else some (0, s)

/-- From `if (noserver == 0)` on. -/
def probeServer (p : Params) (o : Outcomes) (s : Handles) : Option (Int × Handles) :=
  orGoto (serverStart p o s) (error10 p o) fun s => some (0, s)

/-- From `if (nonetlink == 0)` on. -/
def probeNetlink (p : Params) (o : Outcomes) (s : Handles) : Option (Int × Handles) :=
  orGoto (netlinkStart p o s) (error9 p) (probeServer p o)

/-- From `if (noirq)` on. -/
def probeTrigger (p : Params) (o : Outcomes) (s : Handles) : Option (Int × Handles) :=
  orGoto (some (triggerInit p o s)) error8 (probeNetlink p o)

/-- From `i2c_mpu6050_sysfs_init` on. -/
def probeDevice (p : Params) (o : Outcomes) (s : Handles) : Option (Int × Handles) :=
  orGoto (some (sysfsInit o s)) error5 fun s =>
  orGoto (some (o.devicePing, s)) error6 fun s =>
  orGoto (some (o.deviceInit, s)) error6 fun s =>
  orGoto (some (wqInit o s)) error7 (probeTrigger p o)

/-- `i2c_mpu6050_probe`: what it returns, and what the driver holds then. -/
def probe (p : Params) (o : Outcomes) : Option (Int × Handles) :=
  let s := Handles.zero o.clientIrq
  if o.checkFunctionality = false then some (eio, s)
  else if o.gpioLedIsValid = false then some (enosys, s)
  else if o.kzallocClientData = false then none
  else
    let s := s.acquire .clientData
    if o.scriptParserFetch ≠ 0 then some (o.scriptParserFetch, error2 s)
    else if o.gpioRequestLed = false then some (enosys, error2 s)
    else probeDevice p o (s.acquire .gpioLed)

/-! ### `i2c_mpu6050_remove` -/

/-- `i2c_mpu6050_remove`, by the values the parameters have now. -/
def remove (p : Params) (sendSig : Forwarder → Int) (s : Handles) : Handles :=
  let s := if p.noserver = 0 then serverFini sendSig s else s
  let s := if p.nonetlink = 0 then netlinkFini sendSig s else s
  let s := if p.noirq ≠ 0 then timerFini s else irqFini s
  let s := wqFini s
  let s := sysfsFini s
  let s := s.release .gpioLed
  s.release .clientData

end Mpu6050
