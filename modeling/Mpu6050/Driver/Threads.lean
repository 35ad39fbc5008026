/-
The two forwarding threads and the functions that stop them.

`i2c_mpu6050_netlink_run` is stopped by `i2c_mpu6050_netlink_fini` and
`i2c_mpu6050_server_run` by `i2c_mpu6050_server_fini`, the same way: a signal, a wait on
the flag `running` of the record they share, and then the record is freed.  A state
here is where each of the two stands, the flag, and whether the record has been freed;
a step is one access to what they share, or one kernel call with its result.

The kernel is left free.  A signal may be seen pending at any time, every call may
succeed or fail, and nothing says when a thread that was created runs its first
instruction.
-/
import Mpu6050.Lib.Runs

namespace Mpu6050

/-- Which thread, and with it which `fini`. -/
inductive Forwarder
  | netlink
  | server
deriving DecidableEq

/-- The next thing a forwarding thread does. -/
inductive ThreadPc
  /-- test `running`, the first instruction -/
  | start
  /-- `running = 1` -/
  | set
  /-- `daemonize` and `allow_signal` -/
  | allow
  /-- `sock_create` -/
  | create
  /-- fill in `address_send` -/
  | address
  /-- `socket_send->ops->connect` -/
  | connect
  /-- `signal_pending`, at the head of the loop -/
  | loop
  /-- the body of the loop -/
  | body
  /-- `sock_release (socket_send)`, a socket having been created or not -/
  | release (socket : Bool)
  /-- `running = 0` -/
  | clear
  /-- nothing: the thread has returned -/
  | returned
  /-- nothing: `sock_release` was given no socket and did not come back -/
  | dead
deriving DecidableEq

/-- The next thing `fini` does. -/
inductive FiniPc
  /-- `send_sig` -/
  | signal
  /-- `while (running == 1)` -/
  | wait
  /-- `kfree (thread)` -/
  | freeThread
  /-- unregister, and `kfree` the record -/
  | freeServer
  /-- nothing -/
  | done
deriving DecidableEq

/-- A thread, its `fini`, and the record they share. -/
structure Handshake where
  thread : ThreadPc
  fini : FiniPc
  running : Bool
  freed : Bool
deriving DecidableEq

/-- What a thread does, with the result of the call it makes. -/
inductive ThreadEvent
  | testRunning
  | setRunning
  | allowSignal (ok : Bool)
  | sockCreate (ok : Bool)
  | setAddress
  | connect (ok : Bool)
  | signalPending (pending : Bool)
  /-- one round of the loop, which found a sample or did not -/
  | forward (sample : Bool)
  | sockRelease (returns : Bool)
  | clearRunning

/-- What `fini` does. -/
inductive FiniEvent
  | sendSig (ok : Bool)
  | testRunning
  | freeThread
  | freeServer

/-- The step is one of the thread's or one of `fini`'s. -/
inductive HandshakeEvent
  | thread (e : ThreadEvent)
  | fini (e : FiniEvent)

/-- The step reads or writes the shared record.  In the loop only the UDP thread does, for
its socket. -/
def ThreadEvent.touches (f : Forwarder) : ThreadEvent → Bool
  | .allowSignal _ | .signalPending _ => false
  | .forward sample => sample && f = .server
  | _ => true

/-- Where a thread goes once the signal is allowed: only the UDP thread sets up a socket. -/
def Forwarder.afterAllow : Forwarder → ThreadPc
  | .netlink => .loop
  | .server => .create

/-- Where a thread goes when it leaves the loop. -/
def Forwarder.afterLoop : Forwarder → ThreadPc
  | .netlink => .clear
  | .server => .release true

/-- `i2c_mpu6050_netlink_run` and `i2c_mpu6050_server_run` -/
def threadStep (f : Forwarder) (s : Handshake) (e : ThreadEvent) : Option Handshake :=
  match s.thread, e with
  | .start, .testRunning => some { s with thread := if s.running then .returned else .set }
  | .set, .setRunning => some { s with thread := .allow, running := true }
  -- the early return does not clear the flag that has just been set
  | .allow, .allowSignal ok => some { s with thread := if ok then f.afterAllow else .returned }
  | .create, .sockCreate ok => some { s with thread := if ok then .address else .release false }
  | .address, .setAddress => some { s with thread := .connect }
  | .connect, .connect ok => some { s with thread := if ok then .loop else .release true }
  | .loop, .signalPending pending =>
      some { s with thread := if pending then f.afterLoop else .body }
  | .body, .forward _ => some { s with thread := .loop }
  | .release socket, .sockRelease returns =>
      if returns then some { s with thread := .clear }
      else if socket then none else some { s with thread := .dead }
  | .clear, .clearRunning => some { s with thread := .returned, running := false }
  | _, _ => none

/-- `i2c_mpu6050_netlink_fini` and `i2c_mpu6050_server_fini`, on a record that is there -/
def finiStep (s : Handshake) (e : FiniEvent) : Option Handshake :=
  match s.fini, e with
  | .signal, .sendSig ok => some { s with fini := if ok then .wait else .freeServer }
  | .wait, .testRunning => some { s with fini := if s.running then .wait else .freeThread }
  | .freeThread, .freeThread => some { s with fini := .freeServer }
  | .freeServer, .freeServer => some { s with fini := .done, freed := true }
  | _, _ => none

/-- One step of either. -/
def handshakeStep (f : Forwarder) (s : Handshake) : HandshakeEvent → Option Handshake
  | .thread e => threadStep f s e
  | .fini e => finiStep s e

/-- The step relation of the pair. -/
def HandshakeStep (f : Forwarder) (s : Handshake) (e : HandshakeEvent) (s' : Handshake) : Prop :=
  handshakeStep f s e = some s'

/-- What `kthread_run` leaves: a zeroed record, and a thread that has not run yet. -/
def createdHandshake : Handshake :=
  { thread := .start, fini := .signal, running := false, freed := false }

end Mpu6050
