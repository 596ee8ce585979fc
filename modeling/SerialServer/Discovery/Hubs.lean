import Mathlib.Data.List.Induction
import SerialServer.Discovery.Main37

/-!
# SerialServer.Discovery.Hubs

The hubs follow the server.

`connect8` starts a hub for each of the ports 1 to 7 (`hubs_connect8`), and whenever the
address of the server changes `disconnect8` has killed all of them before
(`hubs_disconnect8`). So from the first announcement of an address on, the hubs there are
have been configured for the address the client has, as far as their files could be written.

Before that they are configured for an address that is written in the program, while the
client has `unknown` for the address of the server.
-/

namespace SerialServer.Main37

open Scan

/-! ### What is killed -/

theorem hubs_append (log : List Command) (c : Command) :
    hubs (log ++ [c]) = hubsStep (hubs log) c := by
  rw [hubs, hubs, List.foldl_append, List.foldl_cons, List.foldl_nil]

theorem hubs_kills (log : List Command) (is : List Nat) :
    hubs (log ++ is.map .kill) = (hubs log).filter (·.port ∉ is) := by
  induction is using List.reverseRecOn with
  | nil => simp
  | append_singleton is i ih =>
    rw [List.map_append, List.map_singleton, ← List.append_assoc, hubs_append, ih, hubsStep,
      List.filter_filter]
    refine List.filter_congr fun hub _ => ?_
    simp [and_comm]

theorem log_disconnectPorts (s : Client) (is : List Nat) :
    (is.foldl disconnectPort s).log =
      s.log ++ (is.filter fun i => s.statusConnect8.getLsbD i).map .kill := by
  induction is generalizing s with
  | nil => simp
  | cons i is ih =>
    rw [List.foldl_cons, ih]
    by_cases hi : s.statusConnect8.getLsbD i = true
    · have hkill : disconnectPort s i = { s with log := s.log ++ [.kill i] } := if_pos hi
      rw [hkill, List.filter_cons_of_pos hi, List.map_cons, List.append_assoc]
      rfl
    · have hsame : disconnectPort s i = s := if_neg hi
      rw [hsame, List.filter_cons_of_neg hi]

/-- **What `disconnect8` does**: it kills by the mask. -/
theorem log_disconnect8 (s : Client) : (disconnect8 s).log =
    s.log ++ ((List.range 8).filter fun i => s.statusConnect8.getLsbD i).map .kill :=
  log_disconnectPorts s (List.range 8)

/-- When the status has every port, no hub is left. -/
theorem hubs_disconnect8 {s : Client} (hstatus : s.statusConnect8 = 255)
    (hport : ∀ h ∈ hubs s.log, h.port < 8) : hubs (disconnect8 s).log = [] := by
  have hbits : (List.range 8).filter (fun i => s.statusConnect8.getLsbD i) = List.range 8 := by
    rw [hstatus]
    decide
  rw [log_disconnect8, hubs_kills, hbits]
  refine List.filter_eq_nil_iff.2 fun h hh => ?_
  simp [hport h hh]

/-! ### What is started -/

/-- The hub `connect8` starts for port `i`, with what its file had in it before. -/
def hubFor (fopen : Nat → Bool) (files : Nat → Option (List Char)) (ip : List Char) (i : Nat) :
    Hub :=
  ⟨i, fopen i, if fopen i then some (confText (portName i) (3000 + i) ip) else files i⟩

theorem connectPort_eq {s : Client} {i : Nat} (h : s.portConnect8.getLsbD i = true)
    (fopen : Nat → Bool) :
    hubs (connectPort fopen s i).log = hubs s.log ++ [hubFor fopen s.files s.serverip i] ∧
      ∀ j, j ≠ i → (connectPort fopen s i).files j = s.files j := by
  unfold connectPort
  rw [if_pos h]
  dsimp only
  rw [hubs_append, hubsStep, createConf, hubFor]
  by_cases hopen : fopen i = true
  · rw [if_pos hopen, if_pos hopen]
    dsimp only
    rw [if_pos rfl]
    exact ⟨rfl, fun j hj => if_neg hj⟩
  · rw [if_neg hopen, if_neg hopen]
    exact ⟨rfl, fun _ _ => rfl⟩

theorem hubs_connectPorts (fopen : Nat → Bool) {s : Client} {is : List Nat} (hnd : is.Nodup)
    (h : ∀ i ∈ is, s.portConnect8.getLsbD i = true) :
    hubs (is.foldl (connectPort fopen) s).log =
      hubs s.log ++ is.map (hubFor fopen s.files s.serverip) := by
  induction is generalizing s with
  | nil => simp
  | cons i is ih =>
    obtain ⟨hnot, hnd'⟩ := List.nodup_cons.1 hnd
    obtain ⟨hlog, hfiles⟩ := connectPort_eq (h i (by simp)) fopen
    have hsame := sameServer_connectPort fopen s i
    rw [List.foldl_cons, ih hnd' (by
      rw [hsame.2.2]
      exact fun j hj => h j (by simp [hj])), hlog, hsame.serverip, List.append_assoc]
    -- The files of the other ports are as they were.
    have hrest : is.map (hubFor fopen (connectPort fopen s i).files s.serverip) =
        is.map (hubFor fopen s.files s.serverip) := by
      refine List.map_congr_left fun j hj => ?_
      rw [hubFor, hubFor, hfiles j fun hji => hnot (hji ▸ hj)]
    rw [hrest]
    rfl

/-- **`connect8` starts a hub for each port from 1 to 7.** -/
theorem hubs_connect8 (fopen : Nat → Bool) {s : Client} (hport : s.portConnect8 = 255) :
    hubs (connect8 fopen s).log =
      hubs s.log ++ (List.range' 1 7).map (hubFor fopen s.files s.serverip) := by
  refine hubs_connectPorts fopen (List.nodup_range' ..) ?_
  rw [hport]
  decide

theorem connect8_ports (fopen : Nat → Bool) (s : Client) :
    (connect8 fopen s).portConnect8 = s.portConnect8 ∧
      (connect8 fopen s).statusConnect8 = s.portConnect8 :=
  have h := (sameServer_foldl (sameServer_connectPort fopen) (List.range' 1 7) s).2.2
  ⟨h, h⟩

/-! ### The invariant -/

/-- The hub has read a configuration for its port and the address `ip`. -/
def Hub.ConfiguredFor (h : Hub) (ip : List Char) : Prop :=
  h.conf = some (confText (portName h.port) (3000 + h.port) ip)

/-- The hubs whose file could be written are configured for the address the client has. -/
def Follows (s : Client) : Prop :=
  ∀ h ∈ hubs s.log, h.written = true → h.ConfiguredFor s.serverip

/-- Every port is selected and marked as connected, and no hub is for another one. -/
structure Connected (s : Client) : Prop where
  port : s.portConnect8 = 255
  status : s.statusConnect8 = 255
  lt : ∀ h ∈ hubs s.log, h.port < 8

/-- An announcement of an address other than `unknown`, which a client begins with. -/
def Names (d : List Char) : Prop := ∃ f, announced d = some f ∧ f.ip ≠ "unknown".toList

/-- What holds when the datagrams `seen` have been received. -/
structure Inv (seen : List (List Char)) (s : Client) : Prop where
  connected : Connected s
  follows : (∃ d ∈ seen, Names d) → Follows s ∧ ∃ d ∈ seen, announced d = some s.server
  unknown : (¬ ∃ d ∈ seen, Names d) → s.serverip = "unknown".toList

/-- What `connect8` leaves when there were no hubs. -/
theorem connect8_fresh (fopen : Nat → Bool) {s : Client} (hport : s.portConnect8 = 255)
    (hnone : hubs s.log = []) :
    Connected (connect8 fopen s) ∧ hubs (connect8 fopen s).log =
      (List.range' 1 7).map (hubFor fopen s.files s.serverip) := by
  have hhubs := hubs_connect8 fopen hport
  rw [hnone, List.nil_append] at hhubs
  obtain ⟨hp, hs⟩ := connect8_ports fopen s
  refine ⟨⟨hp.trans hport, hs.trans hport, fun h hh => ?_⟩, hhubs⟩
  rw [hhubs] at hh
  obtain ⟨i, hi, rfl⟩ := List.mem_map.1 hh
  obtain ⟨-, hlt⟩ := List.mem_range'_1.1 hi
  exact hlt

/-- An announcement of the address the client has changes nothing but the count. -/
theorem take_same (fopen : Nat → Bool) (s : Client) (szmac szname : List Char) :
    take fopen s s.serverip szmac szname = { s with gNum := s.gNum + 1 } :=
  if_neg (not_not_intro rfl)

/-- **An announcement of a new address** starts all hubs anew, for that address. -/
theorem take_new (fopen : Nat → Bool) {s : Client} (hs : Connected s) {f : Found}
    (hip : s.serverip ≠ f.ip) :
    Connected (take fopen s f.ip f.mac f.name) ∧ Follows (take fopen s f.ip f.mac f.name) ∧
      (take fopen s f.ip f.mac f.name).server = f := by
  have hserver := (take_server fopen s f).2
  rw [if_pos hip] at hserver
  have hstop : stop8 { s with gNum := s.gNum + 1 } = disconnect8 { s with gNum := s.gNum + 1 } :=
    if_pos (show s.statusConnect8 ≠ 0 by
      rw [hs.status]
      decide)
  have hnone : hubs (disconnect8 { s with gNum := s.gNum + 1 }).log = [] :=
    hubs_disconnect8 hs.status hs.lt
  have hport : (disconnect8 { s with gNum := s.gNum + 1 }).portConnect8 = 255 :=
    (sameServer_disconnect8 _).2.2.trans hs.port
  have htake : take fopen s f.ip f.mac f.name = connect8 fopen
      ((disconnect8 { s with gNum := s.gNum + 1 }).setServer f.ip f.mac f.name) := by
    unfold take
    dsimp only
    rw [if_pos hip, hstop]
    exact if_pos (show (disconnect8 { s with gNum := s.gNum + 1 }).portConnect8 ≠ 0 by
      rw [hport]
      decide)
  obtain ⟨hconn, hhubs⟩ := connect8_fresh fopen
    (s := (disconnect8 { s with gNum := s.gNum + 1 }).setServer f.ip f.mac f.name) hport hnone
  rw [← htake] at hconn hhubs
  refine ⟨hconn, fun h hh hw => ?_, hserver⟩
  rw [hhubs] at hh
  obtain ⟨i, -, rfl⟩ := List.mem_map.1 hh
  have hserverip : (take fopen s f.ip f.mac f.name).serverip = f.ip := congrArg Found.ip hserver
  rw [hserverip]
  exact if_pos hw

/-! ### A run -/

theorem exists_mem_snoc_of {seen : List (List Char)} {d : List Char} {P : List Char → Prop}
    (h : ∃ e ∈ seen, P e) : ∃ e ∈ seen ++ [d], P e := by
  obtain ⟨e, he, hP⟩ := h
  exact ⟨e, List.mem_append_left _ he, hP⟩

theorem exists_mem_of_snoc {seen : List (List Char)} {d : List Char} {P : List Char → Prop}
    (h : ¬ P d) (hex : ∃ e ∈ seen ++ [d], P e) : ∃ e ∈ seen, P e := by
  obtain ⟨e, he, hP⟩ := hex
  rcases List.mem_append.1 he with he | he
  · exact ⟨e, he, hP⟩
  · obtain rfl := List.mem_singleton.1 he
    exact absurd hP h

/-- A datagram that names no new server leaves the invariant. -/
theorem Inv.ignore {seen : List (List Char)} {s : Client} (h : Inv seen s) {d : List Char}
    (hd : Names d → s.serverip ≠ "unknown".toList) : Inv (seen ++ [d]) s := by
  refine ⟨h.connected, fun hex => ?_, fun hno => h.unknown fun hex =>
    hno (exists_mem_snoc_of hex)⟩
  have hseen : ∃ e ∈ seen, Names e := by
    by_contra hno
    exact hno (exists_mem_of_snoc (fun hnames => hd hnames (h.unknown hno)) hex)
  obtain ⟨hfollows, hserver⟩ := h.follows hseen
  exact ⟨hfollows, exists_mem_snoc_of hserver⟩

/-- **One datagram keeps the invariant.** -/
theorem Inv.rleaf {seen : List (List Char)} {s : Client} (h : Inv seen s) {d : List Char}
    (hd : ¬ Ends d) (fopen : Nat → Bool) :
    ∃ t, rleaf fopen s d = some t ∧ Inv (seen ++ [d]) t := by
  cases hf : announced d with
  | none =>
    refine ⟨s, rleaf_ignored hd hf fopen s, h.ignore ?_⟩
    rintro ⟨f, hf', -⟩
    rw [hf] at hf'
    cases hf'
  | some f =>
    refine ⟨_, rleaf_announced hd hf fopen s, ?_⟩
    by_cases hip : s.serverip = f.ip
    · rw [← hip, take_same]
      have hsame : Inv seen { s with gNum := s.gNum + 1 } :=
        ⟨⟨h.connected.port, h.connected.status, h.connected.lt⟩, h.follows, h.unknown⟩
      refine hsame.ignore ?_
      rintro ⟨f', hf', hne⟩
      rw [hf] at hf'
      obtain rfl := Option.some.inj hf'
      exact hip.trans_ne hne
    · obtain ⟨hconn, hfollows, hserver⟩ := take_new fopen h.connected hip
      refine ⟨hconn, fun _ => ⟨hfollows, d, List.mem_append_right _ (by simp), ?_⟩, fun hno => ?_⟩
      · rw [hf, hserver]
      · -- An address other than the one the client has is not `unknown` twice.
        have hold := h.unknown fun hex => hno (exists_mem_snoc_of hex)
        have hnew : f.ip = "unknown".toList := by
          by_contra hne
          exact hno ⟨d, List.mem_append_right _ (by simp), f, hf, hne⟩
        exact absurd (hold.trans hnew.symm) hip

end SerialServer.Main37
