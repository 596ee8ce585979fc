import SerialServer.Core.Run
import SerialServer.Discovery.Bounds

/-!
# SerialServer.Discovery.ChangeIp

What a `changeip` request does to the device.

`changeIP` stops the serial service, writes the boot script and reboots; the loop of
`thread_rcv` is left after the call. When the script cannot be created the call returns with
the service stopped, and the loop is left all the same, so that no later request is heard
(`change_safe_iff`).
-/

namespace SerialServer.Discovery

open Scan Mrs

/-- The device, as far as a change of its address goes. -/
structure Device where
  /-- `ser2net` is running. -/
  ser2net : Bool
  /-- `/root/app/batip0`, run at boot. -/
  batip0 : Option (List Char)
  rebooted : Bool
  /-- `thread_rcv` is in its loop. -/
  receiving : Bool
  /-- A string has been written past its buffer. -/
  overrun : Bool
  /-- What the datagrams have come to. -/
  turns : List Turn
  deriving DecidableEq

/-- A datagram, with what the device finds out about itself then, and whether the boot script
can be created. -/
structure Received where
  d : List Char
  dev : Identity
  fopen : Bool

/-- The script `changeIP` writes. -/
def batip0Text (ifname newIP newMask : List Char) : List Char :=
  "#!/bin/sh\n".toList ++ "ifconfig ".toList ++ ifname ++ " ".toList ++ newIP ++
    " netmask ".toList ++ newMask ++ "\n".toList

/-- `changeIP`. -/
def changeIP (fopen : Bool) (ifname newIP newMask : List Char) (s : Device) : Device :=
  let s := { s with ser2net := false }
  if !fopen then s
  else { s with batip0 := some (batip0Text ifname newIP newMask), rebooted := true }

/-- One turn of the loop of `thread_rcv`. The loop is left after a change. -/
def rcvTurn (s : Device) (r : Received) : Device :=
  if s.rebooted || !s.receiving then s
  else
    let s := { s with
      overrun := s.overrun || !decide (InBounds RcvBuffer.size (rcvStored r.d))
      turns := s.turns ++ [threadRcv r.dev r.d] }
    match threadRcv r.dev r.d with
    | .ignored => s
    | .replied _ _ _ => s
    -- `changeIP` and `break`, whether or not it has got to its reboot.
    | .changed newIP netmask =>
        { changeIP r.fopen r.dev.ifname newIP netmask s with receiving := false }

/-- The service is running, and the device hears requests. -/
structure Serving (s : Device) : Prop where
  ser2net : s.ser2net = true
  rebooted : s.rebooted = false
  receiving : s.receiving = true
  overrun : s.overrun = false

/-- A datagram that stays inside the buffers and does not change the address. -/
structure Quiet (r : Received) : Prop where
  stored : InBounds RcvBuffer.size (rcvStored r.d)
  unchanged : ∀ newIP netmask, threadRcv r.dev r.d ≠ .changed newIP netmask

/-- The device has rebooted, or the datagram is taken and answered as it should be. -/
def Answered (s : Device) (r : Received) : Prop :=
  s.rebooted = true ∨ (rcvTurn s r).turns = s.turns ++ [threadRcv r.dev r.d]

/-- The request has been carried out, or the device still serves and keeps answering whatever
it receives. -/
structure ChangeSafe (s : Device) (r : Received) (newIP netmask : List Char) : Prop where
  overrun : (rcvTurn s r).overrun = false
  outcome :
    ((rcvTurn s r).batip0 = some (batip0Text r.dev.ifname newIP netmask) ∧
        (rcvTurn s r).rebooted = true) ∨
      ((rcvTurn s r).ser2net = true ∧ (rcvTurn s r).batip0 = s.batip0 ∧
        ∀ rs : List Received, Run.EachStep rcvTurn Answered (rcvTurn s r) rs)

/-! ### Requests for a change -/

/-- What is stored of a `changeip` request. -/
theorem rcvStored_changed {dev : Identity} {d newIP netmask : List Char}
    (h : threadRcv dev d = .changed newIP netmask) :
    rcvStored d = [(.header, "changeip".toList), (.header, "changeip".toList),
      (.paraNewIP, newIP), (.paraNetmask, netmask)] := by
  unfold threadRcv at h
  unfold rcvStored
  dsimp only at h ⊢
  have hone := sscanf_words 1 (cstr (d.take 512))
  have hthree := sscanf_words 3 (cstr (d.take 512))
  simp only [List.replicate_succ, List.replicate_zero] at hone hthree
  generalize cstr (d.take 512) = text at h hone hthree
  split at h
  case h_2 => cases h
  case h_1 header hheader =>
    split at h
    · split at h <;> cases h
    split at h
    case isFalse => cases h
    case isTrue hne hchange =>
      split at h
      case h_2 => cases h
      case h_1 first newIP' netmask' hscan =>
        obtain ⟨rfl, rfl⟩ := Turn.changed.inj h
        -- Both scans begin with the same word.
        have hfirst : first = .str header := by
          rw [hheader] at hone
          rw [hscan] at hthree
          cases hws : words text with
          | nil =>
            rw [hws] at hone
            cases hone
          | cons w ws =>
            rw [hws] at hone hthree
            exact (List.cons.inj hthree).1.trans (List.cons.inj hone).1.symm
        rw [hheader, hscan, hfirst, hchange, if_neg (by decide), if_pos rfl]
        rfl

/-- It fits when the address and the mask do. -/
theorem inBounds_changed {dev : Identity} {d newIP netmask : List Char}
    (h : threadRcv dev d = .changed newIP netmask) :
    InBounds RcvBuffer.size (rcvStored d) ↔ newIP.length < 30 ∧ netmask.length < 30 := by
  have hheader : "changeip".toList.length < RcvBuffer.header.size := by decide
  rw [rcvStored_changed h, inBounds_cons, inBounds_cons, inBounds_cons, inBounds_cons]
  exact ⟨fun h => ⟨h.2.2.1, h.2.2.2.1⟩, fun h => ⟨hheader, hheader, h.1, h.2, inBounds_nil⟩⟩

/-- **What a request for a change does**: the service is stopped and the loop left; the
script is written, and the device reboots, if the file can be opened. -/
theorem rcvTurn_changed {s : Device} (hs : Serving s) {r : Received}
    {newIP netmask : List Char} (h : threadRcv r.dev r.d = .changed newIP netmask) :
    rcvTurn s r =
      { ser2net := false
        batip0 := if r.fopen then some (batip0Text r.dev.ifname newIP netmask) else s.batip0
        rebooted := r.fopen
        receiving := false
        overrun := !decide (InBounds RcvBuffer.size (rcvStored r.d))
        turns := s.turns ++ [threadRcv r.dev r.d] } := by
  obtain ⟨ser2net, batip0, rebooted, receiving, overrun, turns⟩ := s
  obtain ⟨hser, hreb, hrec, hover⟩ := hs
  dsimp only at hser hreb hrec hover
  subst hser hreb hrec hover
  unfold rcvTurn changeIP
  simp only [h]
  cases r.fopen <;> rfl

/-! ### Runs -/

/-- A quiet datagram is taken, and nothing else changes. -/
theorem rcvTurn_quiet {s : Device} (hs : Serving s) {r : Received} (hr : Quiet r) :
    rcvTurn s r = { s with turns := s.turns ++ [threadRcv r.dev r.d] } := by
  obtain ⟨ser2net, batip0, rebooted, receiving, overrun, turns⟩ := s
  obtain ⟨hser, hreb, hrec, hover⟩ := hs
  dsimp only at hser hreb hrec hover
  subst hser hreb hrec hover
  unfold rcvTurn
  have hin : decide (InBounds RcvBuffer.size (rcvStored r.d)) = true := decide_eq_true hr.stored
  cases hturn : threadRcv r.dev r.d with
  | ignored => simp [hin]
  | replied _ _ _ => simp [hin]
  | changed newIP netmask => exact absurd hturn (hr.unchanged newIP netmask)

theorem serving_quiet {s : Device} (hs : Serving s) {r : Received} (hr : Quiet r) :
    Serving (rcvTurn s r) := by
  rw [rcvTurn_quiet hs hr]
  exact ⟨hs.ser2net, hs.rebooted, hs.receiving, hs.overrun⟩

/-- As long as no change is asked for, the device goes on serving. -/
theorem serving_run {s : Device} (hs : Serving s) {rs : List Received} (hrs : ∀ r ∈ rs, Quiet r) :
    Serving (rs.foldl rcvTurn s) := by
  induction rs generalizing s with
  | nil => exact hs
  | cons r rs ih =>
    exact ih (serving_quiet hs (hrs r List.mem_cons_self))
      fun q hq => hrs q (List.mem_cons_of_mem r hq)

/-- **A request for a change is safe exactly when the boot script can be created**, and both
of its fields fit their buffers: for every request a serving device receives, after whatever
else it has received. -/
theorem change_safe_iff (s : Device) (hs : Serving s) (rs : List Received)
    (hrs : ∀ q ∈ rs, Quiet q) (r : Received) (newIP netmask : List Char)
    (h : threadRcv r.dev r.d = .changed newIP netmask) :
    ChangeSafe (rs.foldl rcvTurn s) r newIP netmask ↔
      r.fopen = true ∧ newIP.length < 30 ∧ netmask.length < 30 := by
  have hturn := rcvTurn_changed (serving_run hs hrs) h
  rw [← inBounds_changed h]
  generalize rs.foldl rcvTurn s = t at hturn
  constructor
  · rintro ⟨hover, hout⟩
    rw [hturn] at hover hout
    refine ⟨?_, by simpa using hover⟩
    rcases hout with ⟨-, hreb⟩ | ⟨hser, -⟩
    · exact hreb
    · cases hser
  · rintro ⟨hopen, hin⟩
    refine ⟨?_, .inl ⟨?_, ?_⟩⟩
    · rw [hturn]
      simpa using hin
    · rw [hturn, hopen]
      rfl
    · rw [hturn]
      exact hopen

/-! ### At one request -/

/-- A device that has just been started. -/
def started : Device := ⟨true, none, false, true, false, []⟩

theorem serving_started : Serving started := ⟨rfl, rfl, rfl, rfl⟩

/-- A request for 10.0.0.2. -/
def changeRequest (fopen : Bool) : Received where
  d := "changeip 10.0.0.2 255.0.0.0".toList
  dev := ⟨"eth0".toList, "10.0.0.5".toList, "00:11".toList, "netport".toList⟩
  fopen := fopen

theorem change_safe_iff_request :
    ChangeSafe started (changeRequest true) "10.0.0.2".toList "255.0.0.0".toList ↔
      (changeRequest true).fopen = true ∧ "10.0.0.2".toList.length < 30 ∧
        "255.0.0.0".toList.length < 30 :=
  change_safe_iff started serving_started [] (fun q hq => by cases hq) (changeRequest true) _ _
    (by decide)

/-- When the script cannot be created the service is not running any more, and nobody
answers. -/
theorem not_change_safe :
    ¬ ChangeSafe started (changeRequest false) "10.0.0.2".toList "255.0.0.0".toList ∧
      (rcvTurn started (changeRequest false)).ser2net = false ∧
      ∀ r, rcvTurn (rcvTurn started (changeRequest false)) r =
        rcvTurn started (changeRequest false) := by
  have hchanged : threadRcv (changeRequest false).dev (changeRequest false).d =
      .changed "10.0.0.2".toList "255.0.0.0".toList := by
    decide
  have hturn := rcvTurn_changed serving_started hchanged
  rw [hturn]
  refine ⟨?_, rfl, fun r => rfl⟩
  rintro ⟨-, hout⟩
  rw [hturn] at hout
  rcases hout with ⟨-, hreb⟩ | ⟨hser, -⟩
  · cases hreb
  · cases hser

end SerialServer.Discovery
