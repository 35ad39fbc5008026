/-
`Olimex_Mod_MPU6050_Stream_T::collect`: the statistic of a session, brought up to date.

The statistic is collected by a module of the stream and kept in the session's data, which
may have a lock.  What the function calls is given from outside: the results of the lock, the
clock, and what the module's `collect` returned and left behind, unless it threw.

`result` belongs to the lock and `result_2` to the module.  Which of the two is asked whether
there is anything to keep is kept here as it stands.
-/
import Mathlib.Data.List.Basic

namespace Mpu6050.Client

/-- `Stream_Statistic`: the time stamp, and whatever else the library counts. -/
structure RuntimeStatistic (Time Counters : Type) where
  timeStamp : Time
  counters : Counters

/-- What `collect` meets in one call. -/
structure CollectCalls (Time Counters : Type) where
  /-- `find ("RuntimeStatistic")` returned a module. -/
  find : Bool
  /-- Its writer is an `Olimex_Mod_MPU6050_Module_Statistic_WriterTask_t`. -/
  writer : Bool
  /-- Whether `acquire` and `release` work, if there is a lock. -/
  lock : Option (Bool × Bool)
  /-- `COMMON_TIME_NOW` -/
  now : Time
  /-- What the module's `collect` returned; `none` if it threw. -/
  returned : Option Bool
  /-- What it left in `data_out`. -/
  dataOut : RuntimeStatistic Time Counters

/-- What one call of `collect` does to others. -/
inductive CollectStep
  | acquire (acquired : Bool)
  | collect (returned : Option Bool)
  | release (released : Bool)
deriving DecidableEq

/-- What a call leaves: its value, `data_out`, the session's `currentStatistic`, and what it did. -/
structure Collected (Time Counters : Type) where
  value : Bool
  dataOut : RuntimeStatistic Time Counters
  currentStatistic : RuntimeStatistic Time Counters
  steps : List CollectStep

/-- What the methods of `ACE_SYNCH_MUTEX` return. -/
def aceResult : Bool → Int
  | true => 0
  | false => -1

variable {Time Counters : Type}

/-- `acquire`, if there is a lock: `result`, and what was done. -/
def acquireLock (calls : CollectCalls Time Counters) : Int × List CollectStep :=
  match calls.lock with
  | none => (-1, [])
  | some (acquired, _) => (aceResult acquired, [.acquire acquired])

/-- `release`, if there is a lock.  Its result decides only about a log message. -/
def releaseLock (calls : CollectCalls Time Counters) : List CollectStep :=
  match calls.lock with
  | none => []
  | some (_, released) => [.release released]

/-- `Olimex_Mod_MPU6050_Stream_T::collect` -/
def collect (calls : CollectCalls Time Counters) (dataOut current : RuntimeStatistic Time Counters) :
    Collected Time Counters :=
  if !calls.find || !calls.writer then
    { value := false, dataOut, currentStatistic := current, steps := [] }
  else
    let (result, acquired) := acquireLock calls
    if calls.lock.isSome ∧ result = -1 then
      { value := false, dataOut, currentStatistic := current, steps := acquired }
    else
      let current := { current with timeStamp := calls.now }
      let result2 := calls.returned.getD false
      -- not `result_2`: a lock that was acquired has left its 0 here
      let current := if result = 0 then current else calls.dataOut
      { value := result2
        dataOut := calls.dataOut
        currentStatistic := current
        steps := acquired ++ .collect calls.returned :: releaseLock calls }

end Mpu6050.Client
