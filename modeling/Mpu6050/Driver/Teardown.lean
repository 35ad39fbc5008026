/-
`i2c_mpu6050_remove` while the driver is at work.

What a probe has set up goes on until it is taken down: the timer's handler and the
interrupt's each queue the read work, the work fills the ring buffer and switches the LED,
and the `buffer` file is read and written from outside.  `remove` gives back one resource
after another, and the kernel makes each of these calls wait for what it is about:
`hrtimer_cancel` and `free_irq` for the handler, `destroy_workqueue` for the work, run or
still queued, `sysfs_remove_bin_file` for the accesses to the file.

Two of the calls do not come back from a `NULL`: `netlink_kernel_release` of a socket that was
not created, and `destroy_workqueue`.  What stands behind such a one is not given back.

The two threads are not followed here: how they are stopped is a protocol of its own
(`Driver.Threads`).
-/
import Mpu6050.Driver.Module
import Mpu6050.Lib.Shutdown

namespace Mpu6050

/-- By `stopThread`. -/
def stopThreadOrder (sendSig : Forwarder → Int) (f : Forwarder) : List Resource :=
  if sendSig f < 0 then [] else [.thread f, .taskStruct f]

/-- By `i2c_mpu6050_server_fini`. -/
def serverFiniOrder (sendSig : Forwarder → Int) (s : Handles) : List Resource :=
  match s.server with
  | none => []
  | some server => (if server.thread then stopThreadOrder sendSig .server else []) ++ [.server]

/-- By `i2c_mpu6050_netlink_fini`. -/
def netlinkFiniOrder (sendSig : Forwarder → Int) (s : Handles) : List Resource :=
  match s.netlinkServer with
  | none => []
  | some netlinkServer =>
    (if netlinkServer.thread then stopThreadOrder sendSig .netlink else []) ++
      [.netlinkGroup, .netlinkFamily] ++
      if netlinkServer.socket then [.netlinkSocket, .netlinkServer] else []

/-- `netlink_kernel_release` is given a `NULL`. -/
def stopsAtSocket (p : Params) (s : Handles) : Bool :=
  decide (p.nonetlink = 0) && s.netlinkServer.any fun netlinkServer => !netlinkServer.socket

/-- By `i2c_mpu6050_timer_fini`, or by `i2c_mpu6050_irq_fini`, which names `NULL` to `free_irq`. -/
def triggerFiniOrder (p : Params) (s : Handles) : List Resource :=
  if p.noirq ≠ 0 then [.timer]
  else [.irqAction s.irq .null, .gpioExport, .gpioNumber, .gpioInt, .pinctrl]

/-- By `i2c_mpu6050_remove`, threads first. -/
def threadsOrder (p : Params) (sendSig : Forwarder → Int) (s : Handles) : List Resource :=
  (if p.noserver = 0 then serverFiniOrder sendSig s else []) ++
    (if p.nonetlink = 0 then netlinkFiniOrder sendSig s else [])

/-- By `i2c_mpu6050_remove`, as far as it comes. -/
def removeOrder (p : Params) (sendSig : Forwarder → Int) (s : Handles) : List Resource :=
  threadsOrder p sendSig s ++
    if stopsAtSocket p s then []
    else triggerFiniOrder p s ++
      if s.workqueue then [.workqueue, .binFile, .gpioLed, .clientData] else []

end Mpu6050
