import PcatManager.SerialFrame
import Mathlib.Algebra.BigOperators.Group.List.Basic
import Mathlib.Algebra.GroupWithZero.Nat
import Mathlib.Data.Int.Order.Basic

/-!
# The transmit side of the PMU link

The `serial_write_*` fields of `PCatPMUManagerData` and the code that works on them:
the request function, the write watch, the release of the current command by a received
frame and the re-arming of the write watch by the one-second tick. The history and the
request numbers are not part of the program. They record what has happened on the link
so that its runs can be spoken about.
-/

namespace PcatManager
open SerialFrame

/-- `PCAT_PMU_MANAGER_COMMAND_TIMEOUT`, in microseconds. -/
def commandTimeout : ℤ := 1000000

/-- `PCAT_PMU_MANAGER_COMMAND_QUEUE_MAX`. -/
def commandQueueMax : ℕ := 128

/-- `PCatPMUManagerCommandData`. The last field is the number of the request that
allocated the command; the program does not have it. -/
structure CommandData where
  buffer : List UInt8
  writtenSize : ℕ
  command : UInt16
  needAck : Bool
  retryCount : ℕ
  frameNum : UInt16
  timestamp : ℤ
  firstrun : Bool
  id : ℕ
  deriving DecidableEq, Repr

/-- What happens on the link: a command is queued, becomes current, has one of its bytes
written, or a received frame is parsed while some command (or none) is current. -/
inductive LinkEvent where
  | enqueued (cmd : CommandData)
  | current (cmd : CommandData)
  | wrote (id offset : ℕ) (byte : UInt8) (time : ℤ)
  | parsed (current : Option ℕ) (command frameNum : UInt16)
  deriving DecidableEq, Repr

/-- The `serial_write_*` fields: the current command, the queue, the frame number
counter and whether the write watch is installed. -/
structure SerialLink where
  currentCommandData : Option CommandData
  commandQueue : List CommandData
  frameNum : UInt16
  writeSource : Bool
  history : List LinkEvent
  requests : ℕ
  deriving DecidableEq, Repr

/-- The result of `write()` on the serial port: a byte count, `EAGAIN`, or another
error. -/
inductive WriteResult where
  | written (n : ℕ)
  | again
  | failed
  deriving DecidableEq, Repr

namespace SerialLink

/-- Take the head of the queue as current command, if there is one. -/
def popCurrent (l : SerialLink) : SerialLink :=
  match l.commandQueue with
  | [] => l
  | c :: queue =>
    { l with
      currentCommandData := some c
      commandQueue := queue
      history := l.history ++ [.current c] }

/-- Free the current command. -/
def freeCurrent (l : SerialLink) : SerialLink := { l with currentCommandData := none }

/-- Drop the oldest commands while the queue is longer than its limit. -/
def evictOldest : List CommandData → List CommandData
  | [] => []
  | c :: queue => if commandQueueMax < queue.length + 1 then evictOldest queue else c :: queue

/-- The command a request allocates. An explicit frame number is used as it is, else the
counter is. -/
def newCommandData (l : SerialLink) (now : ℤ) (command : UInt16) (frameNum : Option UInt16)
    (extraData : List UInt8) (needAck : Bool) : CommandData :=
  let frameNum := frameNum.getD l.frameNum
  { buffer := serialWriteFrame frameNum command extraData needAck
    writtenSize := 0
    command := command
    needAck := needAck
    retryCount := if needAck then 3 else 1
    frameNum := frameNum
    timestamp := now
    firstrun := true
    id := l.requests }

/-- `pcat_pmu_serial_write_data_request` on an open port. -/
def serialWriteDataRequest (l : SerialLink) (now : ℤ) (command : UInt16)
    (frameNum : Option UInt16) (extraData : List UInt8) (needAck : Bool) : SerialLink :=
  let newData := l.newCommandData now command frameNum extraData needAck
  let l :=
    { l with
      frameNum := if frameNum.isSome then l.frameNum else l.frameNum + 1
      commandQueue := evictOldest l.commandQueue ++ [newData]
      history := l.history ++ [LinkEvent.enqueued newData]
      requests := l.requests + 1 }
  let l := if l.currentCommandData.isNone then l.popCurrent else l
  { l with writeSource := true }

/-- `n` bytes of the current command have been accepted by `write()`. -/
def recordWrite (l : SerialLink) (c : CommandData) (n : ℕ) (now : ℤ) : SerialLink :=
  { l with
    currentCommandData := some
      { c with writtenSize := c.writtenSize + n, timestamp := now, firstrun := false }
    history := l.history ++ (List.range n).map fun k =>
      .wrote c.id (c.writtenSize + k) (c.buffer.getD (c.writtenSize + k) 0) now }

/-- The size `write()` is asked for. -/
def askedSize (remainingSize : ℕ) : ℕ := if 4096 < remainingSize then 4096 else remainingSize

/-- The `do … while(1)` loop of `pcat_pmu_serial_write_watch_func`. `writes k` is the
result of the `k`-th `write()` of this invocation, which never exceeds what was asked
for. Returns the link, the value `wsize` has after the loop and the number of `write()`
calls; `wsize` keeps its initial value when no `write()` was reached. -/
def writeLoop (now : ℤ) (writes : ℕ → WriteResult) :
    (fuel k : ℕ) → SerialLink → WriteResult → Option (SerialLink × WriteResult × ℕ)
  | 0, _, _, _ => none
  | fuel + 1, k, l, wsize =>
    let l := if l.currentCommandData.isNone then l.popCurrent else l
    match l.currentCommandData with
    | none => some (l, wsize, k)
    | some c =>
      if !c.firstrun && c.writtenSize = 0 && now ≤ c.timestamp + commandTimeout then
        some (l, wsize, k)
      else if !c.firstrun && c.writtenSize = 0 && c.retryCount = 0 then
        writeLoop now writes fuel k l.freeCurrent wsize
      else if c.buffer.length ≤ c.writtenSize then
        if c.needAck then some (l, wsize, k)
        else writeLoop now writes fuel k l.freeCurrent wsize
      else
        let asked := askedSize (c.buffer.length - c.writtenSize)
        match writes k with
        | .written n =>
          if 0 < min n asked then
            writeLoop now writes fuel (k + 1) (l.recordWrite c (min n asked) now)
              (.written (min n asked))
          else some (l, .written 0, k + 1)
        | result => some (l, result, k + 1)

/-- A bound on the turns of the write loop: every turn writes a byte, frees a command or
is the last. -/
def pendingTurns (l : SerialLink) : ℕ :=
  ((l.currentCommandData.toList ++ l.commandQueue).map
    fun c => c.buffer.length - c.writtenSize + 1).sum

/-- What `pcat_pmu_serial_write_watch_func` does with a completely written command after
its loop. -/
def endPass (l : SerialLink) : SerialLink :=
  match l.currentCommandData with
  | none => l
  | some c =>
    if c.buffer.length ≤ c.writtenSize then
      if c.needAck && 0 < c.retryCount then
        { l with
          currentCommandData := some
            { c with retryCount := c.retryCount - 1, writtenSize := 0 } }
      else l.freeCurrent
    else l

/-- `pcat_pmu_serial_write_watch_func`. The local `wsize` is uninitialised: `wsize` is
whatever it holds on entry, read together with `errno`. The watch stays installed only
when the last `write()` would have blocked. -/
def serialWriteWatchFunc (l : SerialLink) (now : ℤ) (writes : ℕ → WriteResult)
    (wsize : WriteResult) : SerialLink :=
  match writeLoop now writes (l.pendingTurns + 1) 0 l wsize with
  | none => l
  | some (l, wsize, _) =>
    let l := l.endPass
    { l with writeSource := wsize = .again }

/-- A received frame answers the current command: its code is the command's plus one, in
the `int` arithmetic of the comparison, and it carries the command's frame number. -/
def Answers (f : Frame) (c : CommandData) : Prop :=
  c.command.toNat + 1 = f.command.toNat ∧ c.frameNum = f.frameNum

instance (f : Frame) (c : CommandData) : Decidable (Answers f c) :=
  inferInstanceAs (Decidable (_ ∧ _))

/-- What `pcat_pmu_serial_read_data_parse` does to the current command for every accepted
frame, whatever its destination. -/
def releaseAnswered (l : SerialLink) (f : Frame) : SerialLink :=
  let seen :=
    { l with
      history := l.history ++ [.parsed (l.currentCommandData.map (·.id)) f.command f.frameNum] }
  match l.currentCommandData with
  | none => seen
  | some c => if Answers f c then seen.freeCurrent else seen

/-- The end of `pcat_pmu_manager_check_timeout_func`: install the write watch again when
there is something to send. -/
def armWriteSource (l : SerialLink) (now : ℤ) : SerialLink :=
  let l :=
    if !l.writeSource && l.currentCommandData.isNone && !l.commandQueue.isEmpty then
      { l with writeSource := true }
    else l
  match l.currentCommandData with
  | none => l
  | some c =>
    if !l.writeSource && (c.firstrun || c.timestamp + commandTimeout < now) then
      { l with writeSource := true }
    else l

/-- The link of a port that has just been opened. -/
def opened (l : SerialLink) : SerialLink :=
  { l with currentCommandData := none, commandQueue := [], history := [], requests := 0 }

end SerialLink
end PcatManager
