import SerialServer.Core.Machine
import SerialServer.Core.Run
import SerialServer.Core.Words

/-!
# SerialServer.Reporter.LockFile

The lock file of a device: `uucp_mk_lock` and `uucp_rm_lock`, for all the processes that use it.

The name is made of the last part of the device's path, so several devices can have one lock file,
and a `User` of it is a process with one of its ports. What a user does between two system calls is
not seen by the others, so the model goes from one call to the next, in any order of the users.

`finish_shutdown_port` calls `uucp_rm_lock` for every port. `shutdown_ports` comes to it for a port
without a connection too, and then the file is one that the port has not made.

A file that is open is still that file when its name has been given to another: `entry` is what
has the name, and `content` what has been written. A user that has the lock has closed its file; the
model remembers which one it was.
-/

namespace SerialServer.Dataxfer

open Scan

/-- A process id. -/
abbrev Pid := { n : Nat // 0 < n ∧ n < 2147483648 }

/-- A process, and the port it wants the device for. -/
structure User where
  pid : Pid
  port : Nat
  deriving DecidableEq

/-- A file, whatever its name. -/
abbrev Inode := Nat

/-! ### What the file says -/

/-- `"%10ld\n"`. -/
def lockText (pid : Pid) : List Char :=
  let ds := Nat.toDigits 10 pid.1
  List.replicate (10 - ds.length) ' ' ++ ds ++ ['\n']

/-- The text in memory. -/
def lockBytes (pid : Pid) : List Byte := (lockText pid).map fun c => BitVec.ofNat 8 c.toNat

/-- What is made of the bytes that `read` returns: four of them are a number as it lies in memory,
others are a text. -/
def readPid (m : Machine) (content : List Byte) : Int :=
  let buf := content.take 64
  if buf.length = 4 then
    (m.ofBytes (buf.getD 0 0) (buf.getD 1 0) (buf.getD 2 0) (buf.getD 3 0)).toInt
  else if 0 < buf.length then
    match integer (cstr (buf.map fun b => Char.ofNat b.toNat)) with
    | some (v, _) => v
    | none => 0
  else 0

/-- `pid > 0`. -/
def toPid (v : Int) : Option Pid :=
  if h : 0 < v.toNat ∧ v.toNat < 2147483648 then some ⟨v.toNat, h⟩ else none

/-! ### One user -/

/-- Where a user is. -/
inductive LockStage
  /-- Not in `uucp_mk_lock`, and without the lock. The call may have returned 1 or -1. -/
  | outside (rv : Option Int)
  /-- The file is open, and is to be read. -/
  | opened (fd : Inode)
  /-- A process id has been read. `kill` is to tell whether there is such a process. -/
  | checking (pid : Pid)
  /-- There is none, and the file is to be removed. -/
  | dead
  /-- `pid == 0`: a new file is to be made. -/
  | free
  /-- It has been, and `rest` is to be written. -/
  | writing (fd : Inode) (rest : List Byte)
  /-- The call has returned 0. -/
  | locked (fd : Inode)
  deriving DecidableEq

/-- The file of a user that has the lock or is about to. -/
def LockStage.file : LockStage → Option Inode
  | .writing fd _ => some fd
  | .locked fd => some fd
  | _ => none

/-- The system calls, each with what is returned. -/
inductive LockCall
  /-- `stat` finds no directory for the file, or `malloc` fails. -/
  | giveUp
  | open (ok : Bool)
  | read (ok : Bool)
  | kill
  | unlink (ok : Bool)
  /-- `open` with `O_CREAT | O_EXCL`. -/
  | create (ok : Bool)
  /-- A `write` of `write_full` writes `count` bytes, or what is left. -/
  | write (count : Nat)
  /-- `write_full` returns -1. -/
  | writeError
  /-- The `unlink` of `uucp_rm_lock`, at the end of a connection. -/
  | rm (ok : Bool)
  /-- The same when `shutdown_ports` ends a port that has none. -/
  | rmUnconnected (ok : Bool)
  deriving Repr, DecidableEq

/-- The file with the name, the files there have been, the processes, and the users. -/
structure LockDir where
  entry : Option Inode
  content : Inode → List Byte
  next : Inode
  alive : Pid → Bool
  stage : User → LockStage

/-- A user goes on. -/
def LockDir.goto (s : LockDir) (u : User) (stage : LockStage) : LockDir :=
  { s with stage := Function.update s.stage u stage }

/-- `uucp_mk_lock` and `uucp_rm_lock`, a call at a time. -/
def LockDir.call (m : Machine) (s : LockDir) (u : User) (c : LockCall) : LockDir :=
  match c, s.stage u with
  | .giveUp, .outside _ => s.goto u (.outside (some (-1)))
  | .open ok, .outside _ =>
      match s.entry with
      | some fd => if ok then s.goto u (.opened fd) else s.goto u .free
      | none => s.goto u .free
  | .read ok, .opened fd =>
      match toPid (if ok then readPid m (s.content fd) else 0) with
      | some pid => s.goto u (.checking pid)
      | none => s.goto u (.outside (some 1))
  | .kill, .checking pid =>
      if s.alive pid then s.goto u (.outside (some 1)) else s.goto u .dead
  | .unlink ok, .dead => { s.goto u .free with entry := if ok then none else s.entry }
  | .create ok, .free =>
      if ok && s.entry.isNone then
        { s.goto u (.writing s.next (lockBytes u.pid)) with
          entry := some s.next
          content := Function.update s.content s.next []
          next := s.next + 1 }
      else s.goto u (.outside (some (-1)))
  | .write count, .writing fd rest =>
      { s.goto u (if rest.length ≤ count then .locked fd else .writing fd (rest.drop count)) with
        content := Function.update s.content fd (s.content fd ++ rest.take count) }
  -- `rv` is a `size_t`, so it is not seen to be negative.
  | .writeError, .writing fd _ => s.goto u (.locked fd)
  | .rm ok, .locked _ =>
      { s.goto u (.outside none) with entry := if ok then none else s.entry }
  | .rmUnconnected ok, .outside _ =>
      { s.goto u (.outside none) with entry := if ok then none else s.entry }
  | _, _ => s

/-! ### All of them -/

/-- What can happen. -/
inductive LockEvent
  | call (u : User) (c : LockCall)
  | born (pid : Pid)
  | die (pid : Pid)
  deriving DecidableEq

/-- What an event does. -/
def LockDir.step (m : Machine) (s : LockDir) : LockEvent → LockDir
  | .call u c => if s.alive u.pid then s.call m u c else s
  | .born pid => { s with alive := Function.update s.alive pid true }
  | .die pid =>
      { s with
        alive := Function.update s.alive pid false
        stage := fun u => if u.pid = pid then .outside none else s.stage u }

/-- There are processes, and there may be a file from before. -/
def LockDir.start (alive : Pid → Bool) (old : Option (List Byte)) : LockDir where
  entry := old.map fun _ => 0
  content := fun _ => old.getD []
  next := 1
  alive := alive
  stage := fun _ => .outside none

/-! ### The number in the file -/

theorem length_lockText (pid : Pid) : (lockText pid).length = 11 := by
  have hlen : (Nat.toDigits 10 pid.1).length ≤ 10 :=
    (Nat.length_toDigits_le_iff (by decide) (by decide)).2 (by have := pid.2.2; omega)
  simp only [lockText, List.length_append, List.length_replicate, List.length_singleton]
  omega

theorem mem_lockText {pid : Pid} {c : Char} (h : c ∈ lockText pid) :
    0 < c.toNat ∧ c.toNat < 128 := by
  rcases List.mem_append.1 h with h | h
  · rcases List.mem_append.1 h with h | h
    · rw [List.eq_of_mem_replicate h]
      decide
    · have hdigit : c.isDigit = true := Nat.isDigit_of_mem_toDigits (by decide) (by decide) h
      simp only [Char.isDigit, Bool.and_eq_true, decide_eq_true_eq] at hdigit
      have hlow : 48 ≤ c.toNat := hdigit.1
      have hhigh : c.toNat ≤ 57 := hdigit.2
      omega
  · rw [List.mem_singleton.1 h]
    decide

theorem map_lockBytes (pid : Pid) :
    (lockBytes pid).map (fun b => Char.ofNat b.toNat) = lockText pid := by
  rw [lockBytes, List.map_map, List.map_congr_left (g := id), List.map_id]
  intro c hc
  have hlt := (mem_lockText hc).2
  rw [Function.comp, BitVec.toNat_ofNat, Nat.mod_eq_of_lt (by omega), id]
  exact Char.ofNat_toNat c

/-- The blanks in front are skipped. -/
theorem token_lockText (pid : Pid) : token (lockText pid) = some (Nat.toDigits 10 pid.1, ['\n']) := by
  have hsolid := solid_toDigits pid.1
  have hne : Nat.toDigits 10 pid.1 ≠ [] := Nat.toDigits_ne_nil
  have hspace : ∀ c ∈ List.replicate (10 - (Nat.toDigits 10 pid.1).length) ' ', isSpace c = true := by
    intro c hc
    rw [List.eq_of_mem_replicate hc]
    rfl
  have hall : ∀ c ∈ Nat.toDigits 10 pid.1, (!isSpace c) = true := fun c hc => by
    rw [hsolid c hc]
    rfl
  rw [token, lockText, List.append_assoc, List.dropWhile_append_of_pos hspace,
    dropWhile_solid hsolid hne]
  obtain ⟨c, cs, hcons⟩ := List.exists_cons_of_ne_nil hne
  rw [hcons] at hall ⊢
  dsimp only [List.cons_append]
  rw [← List.cons_append, List.takeWhile_append_of_pos hall, List.dropWhile_append_of_pos hall]
  simp [isSpace]

theorem integer_lockText (pid : Pid) : integer (lockText pid) = some ((pid.1 : Int), ['\n']) := by
  have hsaturate : saturate pid.1 = pid.1 := by
    have := pid.2.2
    simp only [saturate]
    omega
  rw [integer_token (token_lockText pid), integer_toDigits, hsaturate]
  rfl

/-- **What is written is read back.** -/
theorem readPid_lockBytes (m : Machine) (pid : Pid) :
    toPid (readPid m (lockBytes pid)) = some pid := by
  have hlen : (lockBytes pid).length = 11 := by rw [lockBytes, List.length_map, length_lockText]
  have htake : (lockBytes pid).take 64 = lockBytes pid := List.take_of_length_le (by omega)
  have hread : readPid m (lockBytes pid) = pid.1 := by
    rw [readPid, htake, if_neg (by omega), if_pos (by omega), map_lockBytes,
      cstr_eq_self fun c hc => (mem_lockText hc).1.ne', integer_lockText]
  rw [hread, toPid, Int.toNat_natCast, dif_pos pid.2]

/-- Nothing is read from a file that is empty. -/
theorem readPid_nil (m : Machine) : toPid (readPid m []) = none := rfl

end SerialServer.Dataxfer
