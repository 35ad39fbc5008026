/-
The three ways a sample leaves the driver: the netlink message of
`olimex_mod_mpu6050_netlink.c`, the UDP datagram of `olimex_mod_mpu6050_server.c` and
the sysfs line of `olimex_mod_mpu6050_sysfs.c`.

Each looks at `ringbuffer[ringbufferpos]`.  The two threads test for the sentinel
first; the sysfs read does not.  The kernel's networking calls are parameters: their
results are given, and what is handed to them is what the functions here return.
-/
import Mpu6050.Driver.Sample

namespace Mpu6050

/-! ### Netlink -/

/-- `enum i2c_mpu6050_netlink_attributes_t`, without the two bounds. -/
inductive NetlinkAttribute
  | accelX | accelY | accelZ | temp | gyroX | gyroY | gyroZ
deriving DecidableEq

/-- The results of the kernel calls of one `i2c_mpu6050_netlink_forward`. -/
structure ForwardResults where
  /-- `genlmsg_new` returned a buffer. -/
  genlmsgNew : Bool
  /-- `genlmsg_put` returned a header. -/
  genlmsgPut : Bool
  nlaPutU16 : NetlinkAttribute → Int
  genlmsgEnd : Int
  genlmsgMulticast : Int

/-- What one call does with its message buffer. -/
inductive BufferStep
  | new
  | cancel
  | free
  | multicast (attrs : List (NetlinkAttribute × BitVec 16))
deriving DecidableEq

/-- The attributes in the order in which they are put. -/
def netlinkAttributes (s : Sample (BitVec 16)) : List (NetlinkAttribute × BitVec 16) :=
  [(.accelX, s.accelX), (.accelY, s.accelY), (.accelZ, s.accelZ), (.temp, s.temp),
   (.gyroX, s.gyroX), (.gyroY, s.gyroY), (.gyroZ, s.gyroZ)]

/-- The `nla_put_u16` calls, up to the first that fails, and the attributes that were put. -/
def putAttributes (nlaPutU16 : NetlinkAttribute → Int) :
    List (NetlinkAttribute × BitVec 16) → List (NetlinkAttribute × BitVec 16) →
      Int × List (NetlinkAttribute × BitVec 16)
  | [], carried => (0, carried)
  | (attr, value) :: rest, carried =>
    let err := nlaPutU16 attr
    if err ≠ 0 then (err, carried) else putAttributes nlaPutU16 rest (carried ++ [(attr, value)])

/-- `i2c_mpu6050_netlink_forward` on a slot's data: the code it returns, and its buffer's fate. -/
def netlinkForward (results : ForwardResults) (data : Data) : Int × List BufferStep :=
  if !results.genlmsgNew then (enomem, [])
  else if !results.genlmsgPut then (enosys, [.new, .free])
  else
    let (err, carried) :=
      putAttributes results.nlaPutU16 (netlinkAttributes (deviceExtractData data)) []
    if err ≠ 0 then (err, [.new, .cancel, .free])
    else
      let err := results.genlmsgEnd
      if err < 0 then (err, [.new, .cancel, .free])
      else
        let err := results.genlmsgMulticast
        if err ≠ 0 then (err, [.new, .multicast carried])
        else (0, [.new, .multicast carried])

/-- The body of the loop of `i2c_mpu6050_netlink_run`, between `mutex_lock` and `mutex_unlock`. -/
def netlinkRun (results : ForwardResults) (cd : ClientData) : Except Stuck (List BufferStep) :=
  if cd.ringbufferpos = -1 then .ok []
  else do
    let i ← ringbufferIndex cd.ringbufferpos
    if (cd.ringbuffer i).used = false then .ok []
    else .ok (netlinkForward results (cd.ringbuffer i).data).2

/-! ### UDP -/

/-- What `sock_sendmsg` is given: a pointer to a slot's data, and a length. -/
structure Datagram where
  buffer : Data
  length : Int

/-- `i2c_mpu6050_server_send`: nothing is sent on a socket without a `sk`. -/
def serverSend (sk : Bool) (buffer : Data) (length : Int) : Option Datagram :=
  if sk = false then none else some { buffer, length }

/-- The body of the loop of `i2c_mpu6050_server_run`, between `mutex_lock` and `mutex_unlock`. -/
def serverRun (sk : Bool) (cd : ClientData) : Except Stuck (Option Datagram) :=
  if cd.ringbufferpos = -1 then .ok none
  else do
    let i ← ringbufferIndex cd.ringbufferpos
    if (cd.ringbuffer i).used = false then .ok none
    else .ok (serverSend sk (cd.ringbuffer i).data (cd.ringbuffer i).size)

/-! ### sysfs -/

/-- `PAGE_SIZE` -/
abbrev pageSize : Nat := 4096

/-- `%d` -/
def formatInt : Int → List Char
  | .ofNat n => Nat.toDigits 10 n
  | .negSucc n => '-' :: Nat.toDigits 10 (n + 1)

/-- `"%d,%d,%d,%d,%d,%d,%d\n"` -/
def formatLine (s : Sample Int) : List Char :=
  formatInt s.accelX ++ ',' :: formatInt s.accelY ++ ',' :: formatInt s.accelZ ++ ',' ::
    formatInt s.temp ++ ',' :: formatInt s.gyroX ++ ',' :: formatInt s.gyroY ++ ',' ::
    formatInt s.gyroZ ++ ['\n']

/-- What `scnprintf(buf, size, ..)` leaves in `buf`, without the NUL. -/
def scnprintf (size : Nat) (text : List Char) : List Char :=
  text.take (size - 1)

/-- The integers `i2c_mpu6050_ringbuffer_read` prints for a slot's data. -/
def printedSample (data : Data) : Sample Int :=
  (deviceExtractData data).map BitVec.toInt

/-- The text it prints. -/
def printedLine (data : Data) : List Char :=
  scnprintf pageSize (formatLine (printedSample data))

/--
`i2c_mpu6050_ringbuffer_read`: the text left in the buffer and the count returned.
Neither argument is looked at.
-/
def ringbufferRead (_offset : Int) (_count : Nat) (cd : ClientData) :
    Except Stuck (Option (List Char) × Int) := do
  let i ← ringbufferIndex cd.ringbufferpos
  if (cd.ringbuffer i).used = false then .ok (none, 0)
  else .ok (some (printedLine (cd.ringbuffer i).data), (printedLine (cd.ringbuffer i).data).length)

/-- `i2c_mpu6050_ringbuffer_clear`, what a write to the file does. -/
def ringbufferClear (cd : ClientData) : ClientData :=
  { cd with ringbuffer := fun i => { cd.ringbuffer i with used := false } }

end Mpu6050
