import PcatManager.GuardedRun
import Mathlib.Data.List.Basic
import Mathlib.Data.List.Infix
import Mathlib.Logic.Function.Basic

/-!
# The output side of the control socket

Replies are appended to the output buffer of a connection and written by a watch that is
installed while there is something to write. A step is one callback of the main loop, as
far as it touches the connection table.
-/

namespace PcatManager

/-- What a `const gchar *` points to, without the NUL. -/
structure CString where
  bytes : List UInt8
  noNul : 0 ∉ bytes
  deriving DecidableEq

theorem CString.noNul_nil : 0 ∉ ([] : List UInt8) := List.not_mem_nil

/-- The empty string. -/
def CString.empty : CString := ⟨[], CString.noNul_nil⟩

/-- The `strlen + 1` bytes of a string. -/
def CString.stored (text : CString) : List UInt8 := text.bytes ++ [0]

theorem CString.stored_ne_nil (text : CString) : text.stored ≠ [] := by
  simp [CString.stored]

/-- The part of `PCatControllerConnectionData` that the callbacks read and change. The last
two fields are what the client's socket has accepted and the replies pushed so far; the
program does not have them. -/
structure Connection where
  inputBuffer : List UInt8 := []
  outputBuffer : List UInt8 := []
  outputStreamSource : Bool := false
  accepted : List UInt8 := []
  pushed : List CString := []
  deriving DecidableEq

/-- An error of a non-blocking write. -/
inductive SocketError where
  | wouldBlock | connectionClosed | other
  deriving DecidableEq, Repr

/-- The result of `g_pollable_output_stream_write_nonblocking`: a byte count, or -1 with an
error set. -/
inductive SocketWrite where
  | written (n : ℕ)
  | failed (error : SocketError)
  deriving DecidableEq, Repr

namespace Connection

/-- Append a string and its NUL to the output buffer. -/
def append (c : Connection) (text : CString) : Connection :=
  { c with outputBuffer := c.outputBuffer ++ text.stored, pushed := c.pushed ++ [text] }

/-- Install the output watch if it is not. -/
def createOutputSource (c : Connection) : Connection :=
  if c.outputStreamSource then c else { c with outputStreamSource := true }

/-- The branch of `pcat_controller_unix_socket_output_json_push` for one connection. -/
def outputJsonPush (c : Connection) (jsonData : CString) : Connection :=
  let c := if 2097152 < c.outputBuffer.length then { c with outputBuffer := [] } else c
  (c.append jsonData).createOutputSource

/-- The body of its loop over all connections, which has no limit. -/
def broadcastJsonPush (c : Connection) (jsonData : CString) : Connection :=
  (c.append jsonData).createOutputSource

/-- The size a write is asked for. -/
def askedWrite (remainingSize : ℕ) : ℕ := if 4096 < remainingSize then 4096 else remainingSize

/-- The `do … while(wsize > 0)` loop of `pcat_controller_unix_socket_output_watch_func` on a
buffer of `len` bytes. `writes k` is the result of the `k`-th write of this invocation,
which never exceeds what was asked for. Returns `total_write_size`, `wsize`, the error and
the number of writes; `wsize` keeps its initial value when no write was reached. -/
def outputWriteLoop (writes : ℕ → SocketWrite) (len : ℕ) :
    (fuel k totalWriteSize : ℕ) → (wsize : ℤ) → Option (ℕ × ℤ × Option SocketError × ℕ)
  | 0, _, _, _ => none
  | fuel + 1, k, totalWriteSize, wsize =>
    if len ≤ totalWriteSize then some (totalWriteSize, wsize, none, k)
    else
      match writes k with
      | .written n =>
        let n := min n (askedWrite (len - totalWriteSize))
        if 0 < n then outputWriteLoop writes len fuel (k + 1) (totalWriteSize + n) n
        else some (totalWriteSize, 0, none, k + 1)
      | .failed error => some (totalWriteSize, -1, some error, k + 1)

/-- What one invocation of the output watch leaves of its loop. -/
def outputWrite (c : Connection) (writes : ℕ → SocketWrite) (wsize : ℤ) :
    Option (ℕ × ℤ × Option SocketError × ℕ) :=
  outputWriteLoop writes c.outputBuffer.length (c.outputBuffer.length + 1) 0 0 wsize

/-- The socket has taken bytes off the front of the output buffer. -/
def removeWritten (c : Connection) (totalWriteSize : ℕ) : Connection :=
  { c with
    outputBuffer := c.outputBuffer.drop totalWriteSize
    accepted := c.accepted ++ c.outputBuffer.take totalWriteSize }

/-- `pcat_controller_unix_socket_output_watch_func`. The local `wsize` is uninitialised:
`wsize` is whatever it holds on entry. `none`: the connection is removed from the table. -/
def outputWatchFunc (c : Connection) (writes : ℕ → SocketWrite) (wsize : ℤ) :
    Option Connection :=
  match c.outputWrite writes wsize with
  | none => some c
  | some (totalWriteSize, wsize, error, _) =>
    let c := if 0 < totalWriteSize then c.removeWritten totalWriteSize else c
    match error with
    | some .wouldBlock => some c
    | some .connectionClosed => none
    | some .other => none
    | none => if wsize = 0 then none else some { c with outputStreamSource := false }

/-- One connection in `pcat_controller_unix_socket_connection_check_timeout_func`. -/
def check (c : Connection) : Connection :=
  if !c.outputStreamSource && 0 < c.outputBuffer.length then
    { c with outputStreamSource := true }
  else c

@[simp] theorem removeWritten_zero (c : Connection) : c.removeWritten 0 = c := by
  cases c
  simp [removeWritten]

theorem askedWrite_le (n : ℕ) : askedWrite n ≤ n := by
  rw [askedWrite]
  split <;> omega

/-- How the write loop ends on a buffer of `len` bytes that is not empty: all is written, a
write returned nothing, or it failed. -/
inductive WriteEnd (len : ℕ) : ℕ → ℤ → Option SocketError → Prop where
  | drained (wsize : ℤ) (h : 0 < wsize) : WriteEnd len len wsize none
  | nothing (total : ℕ) (h : total < len) : WriteEnd len total 0 none
  | failed (total : ℕ) (h : total < len) (error : SocketError) :
      WriteEnd len total (-1) (some error)

theorem outputWriteLoop_spec (writes : ℕ → SocketWrite) {len fuel k total : ℕ} (wsize : ℤ)
    (htotal : total < len) (hfuel : len - total < fuel) :
    ∃ total' wsize' error k',
      outputWriteLoop writes len fuel k total wsize = some (total', wsize', error, k') ∧
        k < k' ∧ WriteEnd len total' wsize' error := by
  induction fuel generalizing k total wsize with
  | zero => exact absurd hfuel (Nat.not_lt_zero _)
  | succ fuel ih =>
    rw [outputWriteLoop, if_neg (Nat.not_le.mpr htotal)]
    cases writes k with
    | failed error => exact ⟨total, -1, some error, k + 1, rfl, k.lt_succ_self, .failed _ htotal _⟩
    | written n =>
      dsimp only
      have hasked := askedWrite_le (len - total)
      generalize hwsize : min n (askedWrite (len - total)) = wrote
      by_cases hpos : 0 < wrote
      · rw [if_pos hpos]
        by_cases hdone : total + wrote = len
        · cases fuel with
          | zero => omega
          | succ fuel =>
            rw [outputWriteLoop, if_pos hdone.ge, hdone]
            exact ⟨len, wrote, none, k + 1, rfl, k.lt_succ_self, .drained _ (by exact_mod_cast hpos)⟩
        · have hnext : ∃ total' wsize' error k',
              outputWriteLoop writes len fuel (k + 1) (total + wrote) wrote =
                some (total', wsize', error, k') ∧
                k + 1 < k' ∧ WriteEnd len total' wsize' error := ih wrote (by omega) (by omega)
          obtain ⟨total', wsize', error, k', hloop, hk, hend⟩ := hnext
          exact ⟨total', wsize', error, k', hloop, by omega, hend⟩
      · rw [if_neg hpos]
        exact ⟨total, 0, none, k + 1, rfl, k.lt_succ_self, .nothing _ htotal⟩

/-- With something to write, the first turn of the loop does not look at `wsize`. -/
theorem outputWrite_wsize {c : Connection} (hbuffer : c.outputBuffer ≠ [])
    (writes : ℕ → SocketWrite) (wsize wsize' : ℤ) :
    c.outputWrite writes wsize = c.outputWrite writes wsize' := by
  have hlen := Nat.not_le.mpr (List.length_pos_iff.mpr hbuffer)
  rw [outputWrite, outputWrite, outputWriteLoop, outputWriteLoop, if_neg hlen, if_neg hlen]

theorem outputWrite_attempts {c : Connection} (hbuffer : c.outputBuffer ≠ [])
    (writes : ℕ → SocketWrite) (wsize : ℤ) :
    ∃ total wsize' error attempts,
      c.outputWrite writes wsize = some (total, wsize', error, attempts) ∧ 0 < attempts ∧
        WriteEnd c.outputBuffer.length total wsize' error :=
  outputWriteLoop_spec writes wsize (List.length_pos_iff.mpr hbuffer) (Nat.lt_succ_self _)

/-- What the output watch does with something to write: remove the connection, write a part
and stay, or write everything and go. -/
theorem outputWatchFunc_cases {c : Connection} (hbuffer : c.outputBuffer ≠ [])
    (writes : ℕ → SocketWrite) (wsize : ℤ) :
    c.outputWatchFunc writes wsize = none ∨
      (∃ total < c.outputBuffer.length,
        c.outputWatchFunc writes wsize = some (c.removeWritten total)) ∨
      c.outputWatchFunc writes wsize =
        some { c.removeWritten c.outputBuffer.length with outputStreamSource := false } := by
  obtain ⟨total, wsize', error, attempts, hwrite, -, hend⟩ := outputWrite_attempts hbuffer writes wsize
  have hremoved : (if 0 < total then c.removeWritten total else c) = c.removeWritten total := by
    split
    · rfl
    · rename_i hzero
      rw [Nat.eq_zero_of_not_pos hzero, removeWritten_zero]
  rw [outputWatchFunc, hwrite]
  simp only [hremoved]
  cases hend with
  | drained _ hpos =>
    rw [if_neg (Int.ne_of_gt hpos)]
    exact .inr (.inr rfl)
  | nothing _ _ => exact .inl rfl
  | failed _ hlt error =>
    cases error with
    | wouldBlock => exact .inr (.inl ⟨total, hlt, rfl⟩)
    | connectionClosed => exact .inl rfl
    | other => exact .inl rfl

/-- The output watch is installed exactly when there is something to write. -/
def SourceMatches (c : Connection) : Prop := c.outputStreamSource = true ↔ c.outputBuffer ≠ []

theorem createOutputSource_append (c : Connection) (text : CString) :
    (c.append text).createOutputSource = { c.append text with outputStreamSource := true } := by
  rw [createOutputSource]
  split
  · rename_i hsource
    rw [← hsource]
  · rfl

theorem sourceMatches_append (c : Connection) (text : CString) :
    (c.append text).createOutputSource.SourceMatches := by
  rw [createOutputSource_append]
  exact iff_of_true rfl (List.append_ne_nil_of_right_ne_nil _ text.stored_ne_nil)

theorem SourceMatches.outputWatch {c c' : Connection} (h : c.SourceMatches)
    (hsource : c.outputStreamSource = true) {writes : ℕ → SocketWrite} {wsize : ℤ}
    (hwatch : c.outputWatchFunc writes wsize = some c') : c'.SourceMatches := by
  obtain hnone | ⟨total, hlt, hpart⟩ | hall := outputWatchFunc_cases (h.mp hsource) writes wsize
  · rw [hnone] at hwatch
    cases hwatch
  · rw [hpart] at hwatch
    cases hwatch
    refine iff_of_true hsource ?_
    rw [← List.length_pos_iff, removeWritten, List.length_drop]
    omega
  · rw [hall] at hwatch
    cases hwatch
    refine iff_of_false Bool.false_ne_true ?_
    rw [removeWritten, not_not]
    exact List.drop_length

theorem SourceMatches.check {c : Connection} (h : c.SourceMatches) : c.check = c := by
  rw [Connection.check, if_neg]
  intro hcheck
  rw [Bool.and_eq_true, Bool.not_eq_true', decide_eq_true_eq, List.length_pos_iff] at hcheck
  rw [h.mpr hcheck.2] at hcheck
  exact absurd hcheck.1 (by decide)

end Connection

/-- The entries of `control_connection_table`, by connection. -/
abbrev ConnectionTable := ℕ → Option Connection

namespace ConnectionTable
open GuardedRun

/-- The callbacks that change the table: `incoming` of the socket service; a handler that
pushes a reply or (without a connection) a message to all, with the text of its root, if
there is one; the output watch; the periodic check; the input watch when it finds its
stream closed or broken. -/
inductive Event where
  | incoming (id : ℕ)
  | push (id : ℕ) (jsonData : Option CString)
  | broadcast (jsonData : Option CString)
  | outputWatch (id : ℕ) (writes : ℕ → SocketWrite) (wsize : ℤ)
  | connectionCheck
  | inputClosed (id : ℕ)

/-- One callback. A watch fires only on a connection of the table, the output watch only
while it is installed. -/
def step (t : ConnectionTable) : Event → ConnectionTable
  | .incoming id => Function.update t id (some {})
  | .push _ none => t
  | .push id (some jsonData) =>
    Function.update t id ((t id).map fun c => c.outputJsonPush jsonData)
  | .broadcast none => t
  | .broadcast (some jsonData) => fun id => (t id).map fun c => c.broadcastJsonPush jsonData
  | .outputWatch id writes wsize =>
    Function.update t id ((t id).bind fun c =>
      if c.outputStreamSource then c.outputWatchFunc writes wsize else some c)
  | .connectionCheck => fun id => (t id).map Connection.check
  | .inputClosed id => Function.update t id none

/-- The table `pcat_controller_unix_socket_open` creates. -/
def opened : ConnectionTable := fun _ => none

/-- What a callback does to one connection that was in the table and still is. -/
inductive ConnectionStep (e : Event) (id : ℕ) (c : Connection) : Connection → Prop where
  | unchanged : ConnectionStep e id c c
  | pushed (text : CString) (h : e = .push id (some text)) :
      ConnectionStep e id c (c.outputJsonPush text)
  | broadcast (text : CString) : ConnectionStep e id c (c.broadcastJsonPush text)
  | watched (writes : ℕ → SocketWrite) (wsize : ℤ) (c' : Connection)
      (hsource : c.outputStreamSource = true) (h : c.outputWatchFunc writes wsize = some c') :
      ConnectionStep e id c c'
  | checked : ConnectionStep e id c c.check

/-- An entry of an updated table is the new one or was there before. -/
theorem update_eq_some {t : ConnectionTable} {k id : ℕ} {entry : Option Connection}
    {c' : Connection} (h : Function.update t k entry id = some c') :
    (k = id ∧ entry = some c') ∨ t id = some c' := by
  by_cases hk : id = k
  · subst hk
    rw [Function.update_self] at h
    exact .inl ⟨rfl, h⟩
  · rw [Function.update_of_ne hk] at h
    exact .inr h

/-- A connection that is in the table after a callback is new, or the callback took a step
on it. -/
theorem connectionStep_of_step {t : ConnectionTable} {e : Event} {id : ℕ} {c' : Connection}
    (h : step t e id = some c') :
    c' = {} ∨ ∃ c, t id = some c ∧ ConnectionStep e id c c' := by
  cases e with
  | incoming k =>
    obtain ⟨rfl, hnew⟩ | hsame := update_eq_some h
    · exact .inl (Option.some.inj hnew).symm
    · exact .inr ⟨c', hsame, .unchanged⟩
  | push k jsonData =>
    cases jsonData with
    | none => exact .inr ⟨c', h, .unchanged⟩
    | some text =>
      obtain ⟨rfl, hpush⟩ | hsame := update_eq_some h
      · obtain ⟨c, hc, rfl⟩ := Option.map_eq_some_iff.mp hpush
        exact .inr ⟨c, hc, .pushed text rfl⟩
      · exact .inr ⟨c', hsame, .unchanged⟩
  | broadcast jsonData =>
    cases jsonData with
    | none => exact .inr ⟨c', h, .unchanged⟩
    | some text =>
      obtain ⟨c, hc, rfl⟩ := Option.map_eq_some_iff.mp h
      exact .inr ⟨c, hc, .broadcast text⟩
  | outputWatch k writes wsize =>
    obtain ⟨rfl, hwatch⟩ | hsame := update_eq_some h
    · obtain ⟨c, hc, hwatch⟩ := Option.bind_eq_some_iff.mp hwatch
      by_cases hsource : c.outputStreamSource = true
      · rw [if_pos hsource] at hwatch
        exact .inr ⟨c, hc, .watched writes wsize c' hsource hwatch⟩
      · rw [if_neg hsource] at hwatch
        cases hwatch
        exact .inr ⟨_, hc, .unchanged⟩
    · exact .inr ⟨c', hsame, .unchanged⟩
  | connectionCheck =>
    obtain ⟨c, hc, rfl⟩ := Option.map_eq_some_iff.mp h
    exact .inr ⟨c, hc, .checked⟩
  | inputClosed k =>
    obtain ⟨-, hnone⟩ | hsame := update_eq_some h
    · cases hnone
    · exact .inr ⟨c', hsame, .unchanged⟩

/-- A property of connections that holds of all in the table. -/
def All (p : Connection → Prop) (t : ConnectionTable) : Prop := ∀ id c, t id = some c → p c

theorem all_opened (p : Connection → Prop) : All p opened := fun _ _ h => nomatch h

/-- A property of new connections that every step on a connection preserves holds of all. -/
theorem All.step {p : Connection → Prop} {t : ConnectionTable} {e : Event} (h : All p t)
    (hnew : p {}) (hstep : ∀ id c c', t id = some c → ConnectionStep e id c c' → p c → p c') :
    All p (step t e) := by
  intro id c' hc'
  obtain rfl | ⟨c, hc, hstep'⟩ := connectionStep_of_step hc'
  · exact hnew
  · exact hstep id c c' hc hstep' (h id c hc)

theorem ConnectionStep.sourceMatches {e : Event} {id : ℕ} {c c' : Connection}
    (hstep : ConnectionStep e id c c') (h : c.SourceMatches) : c'.SourceMatches := by
  cases hstep with
  | unchanged => exact h
  | pushed text _ => exact Connection.sourceMatches_append _ text
  | broadcast text => exact Connection.sourceMatches_append c text
  | watched writes wsize _ hsource hwatch => exact h.outputWatch hsource hwatch
  | checked => rwa [h.check]

/-- In every run a connection has the output watch exactly when its output buffer is not
empty. So a firing watch makes a write before it looks at `wsize`, and what it does does
not depend on the value `wsize` starts with. -/
theorem source_iff_pending (events : List Event) (id : ℕ) (c : Connection)
    (hc : run step opened events id = some c) :
    (c.outputStreamSource = true ↔ c.outputBuffer ≠ []) ∧
      (c.outputStreamSource = true → ∀ writes wsize,
        (∃ total wsize' error attempts,
          c.outputWrite writes wsize = some (total, wsize', error, attempts) ∧ 0 < attempts) ∧
        ∀ wsize', c.outputWatchFunc writes wsize = c.outputWatchFunc writes wsize') := by
  have hmatches : c.SourceMatches :=
    run_invariant (I := All Connection.SourceMatches)
      (fun t e ht => ht.step (iff_of_false Bool.false_ne_true (not_not.mpr rfl))
        fun _ _ _ _ hstep h => hstep.sourceMatches h)
      (all_opened _) events id c hc
  refine ⟨hmatches, fun hsource writes wsize => ⟨?_, fun wsize' => ?_⟩⟩
  · obtain ⟨total, wsize', error, attempts, hwrite, hpos, -⟩ :=
      Connection.outputWrite_attempts (hmatches.mp hsource) writes wsize
    exact ⟨total, wsize', error, attempts, hwrite, hpos⟩
  · rw [Connection.outputWatchFunc, Connection.outputWatchFunc,
      Connection.outputWrite_wsize (hmatches.mp hsource) writes wsize wsize']

/-- A reply of two bytes of which the socket has taken one. -/
def halfWritten : List Event :=
  [.incoming 0, .push 0 (some ⟨[97, 98], by decide⟩),
    .outputWatch 0 (fun k => if k = 0 then .written 1 else .failed .wouldBlock) 0]

theorem source_iff_pending_halfWritten : ∃ c, run step opened halfWritten 0 = some c ∧
    (c.outputStreamSource = true ↔ c.outputBuffer ≠ []) ∧
    (c.outputStreamSource = true → ∀ writes wsize,
      (∃ total wsize' error attempts,
        c.outputWrite writes wsize = some (total, wsize', error, attempts) ∧ 0 < attempts) ∧
      ∀ wsize', c.outputWatchFunc writes wsize = c.outputWatchFunc writes wsize') := by
  have hrun : run step opened halfWritten 0 = some
      { outputBuffer := [98, 0], outputStreamSource := true, accepted := [97],
        pushed := [⟨[97, 98], by decide⟩] } := by decide +kernel
  exact ⟨_, hrun, source_iff_pending halfWritten 0 _ hrun⟩

end ConnectionTable
end PcatManager
