import SerialServer.Core.Machine
import SerialServer.Core.Scan

/-!
# SerialServer.Discovery.Main37

The side of the client (`main37xp1.c`): it listens for announcements, keeps the address, MAC
and name of the server it heard last, and runs a hub process for each serial port, which
reads the address of the server from a configuration file when it starts.

What the client asks of the system is a log of commands; the hubs that are left of it are
those whose image has not been killed since they were started (`hubs`). A file that cannot
be opened keeps what it has in it, and its hub is started all the same.

One datagram does one of three things (`rleaf_eq`): it ends the loop, it is an announcement
(`announced`), or nothing happens.
-/

namespace SerialServer.Main37

open Scan

/-- A hub process, with the configuration file it has read and whether `createConf` could
write that file before. -/
structure Hub where
  port : Nat
  written : Bool
  conf : Option (List Char)
  deriving Repr, DecidableEq

/-- What `RunSilent` is called for. -/
inductive Command
  /-- `h4c<i>.exe`. -/
  | start (hub : Hub)
  /-- `taskkill /f /t /im h4c<i>.exe`. -/
  | kill (i : Nat)
  /-- `taskkill /f /t /fi "IMAGENAME eq h4c*" /im *`. -/
  | killAll
  deriving Repr, DecidableEq

/-- What an announcement tells of a server. -/
structure Found where
  ip : List Char
  mac : List Char
  name : List Char
  deriving Repr, DecidableEq

/-- The globals of the client, the configuration files and the commands it has run. -/
structure Client where
  gNum : Word
  serverip : List Char
  servermac : List Char
  servername : List Char
  portConnect8 : Word
  statusConnect8 : Word
  files : Nat → Option (List Char)
  log : List Command

/-- The server a client has heard last. -/
def Client.server (s : Client) : Found := ⟨s.serverip, s.servermac, s.servername⟩

/-- The three strings, set. -/
def Client.setServer (s : Client) (ip mac name : List Char) : Client :=
  { s with serverip := ip, servermac := mac, servername := name }

/-- What one command leaves of the hubs. -/
def hubsStep : List Hub → Command → List Hub
  | hs, .start h => hs ++ [h]
  | hs, .kill i => hs.filter (·.port ≠ i)
  | _, .killAll => []

/-- The hubs that have been started since the last kill of their image. -/
def hubs (log : List Command) : List Hub := log.foldl hubsStep []

/-! ### Configuration files -/

/-- `createConf`: what it writes. -/
def confText (pcom : List Char) (port : Nat) (pip : List Char) : List Char :=
  "\n_BEGIN_\n".toList ++
  "  --create-filter=escparse,com,parse\n".toList ++
  "  --create-filter=pin2con,com,connect: --connect=dcd\n".toList ++
  "  --create-filter=pinmap,com,pinmap:--rts=cts --dtr=dsr\n".toList ++
  "  --create-filter=linectl,com,lc:--br=local --lc=local\n".toList ++
  "  --add-filters=0:com\n".toList ++
  "  --create-filter=telnet,tcp,telnet: --comport=client\n".toList ++
  "  --create-filter=pinmap,tcp,pinmap:--rts=cts --dtr=dsr --break=break\n".toList ++
  "  --create-filter=linectl,tcp,lc:--br=remote --lc=remote\n".toList ++
  "  --add-filters=1:tcp\n".toList ++
  "  --octs=off\n".toList ++
  "  ".toList ++ pcom ++ "\n".toList ++
  "  --use-driver=tcp\n".toList ++
  "  ".toList ++ pip ++ ":".toList ++ intText port ++ "\n".toList ++
  "_END_\n\n".toList

/-- `createConf`, on the file of port `i`: nothing is written when it cannot be opened. -/
def createConf (fopen : Nat → Bool) (i : Nat) (pcom : List Char) (port : Nat) (pip : List Char)
    (s : Client) : Client :=
  if fopen i then
    { s with files := fun j => if j = i then some (confText pcom port pip) else s.files j }
  else s

/-- `portName` in `connect8`. -/
def portName (i : Nat) : List Char := "\\\\.\\CNCB".toList ++ intText i

/-! ### Starting and killing hubs -/

/-- `disconnect8`, for port `i`. -/
def disconnectPort (s : Client) (i : Nat) : Client :=
  if s.statusConnect8.getLsbD i then { s with log := s.log ++ [.kill i] } else s

/-- `disconnect8`. -/
def disconnect8 (s : Client) : Client :=
  { (List.range 8).foldl disconnectPort s with statusConnect8 := 0 }

/-- `connect8`, for port `i`. -/
def connectPort (fopen : Nat → Bool) (s : Client) (i : Nat) : Client :=
  if s.portConnect8.getLsbD i then
    let t := createConf fopen i (portName i) (3000 + i) s.serverip s
    { t with log := t.log ++ [.start ⟨i, fopen i, t.files i⟩] }
  else s

/-- `connect8`: the ports from 1 on. -/
def connect8 (fopen : Nat → Bool) (s : Client) : Client :=
  let t := (List.range' 1 7).foldl (connectPort fopen) s
  { t with statusConnect8 := t.portConnect8 }

/-- `if( status_connect_8 != 0 ) disconnect8()`. -/
def stop8 (s : Client) : Client := if s.statusConnect8 ≠ 0 then disconnect8 s else s

/-- `disconnectAll`. -/
def disconnectAll (s : Client) : Client :=
  { s with log := s.log ++ [.killAll], statusConnect8 := 0 }

/-- `mcGetip`: the datagram it sends. -/
def mcGetip (szTime : List Char) : List Char :=
  "getip 226.1.1.2 4322 192.168.1.11 ".toList ++ szTime

/-! ### Receiving -/

/-- `rleaf`, when an announcement has been read. -/
def take (fopen : Nat → Bool) (s : Client) (szip szmac szname : List Char) : Client :=
  let s := { s with gNum := s.gNum + 1 }
  if s.serverip ≠ szip then
    let s := (stop8 s).setServer szip szmac szname
    if s.portConnect8 ≠ 0 then connect8 fopen s else s
  else s

/-- `rleaf`: one turn of its loop on the datagram `d`, or `none` when the loop ends. The
header is looked for in the first 50 characters only. A datagram that does not fit the
500 bytes asked for is an error of `recvfrom`. -/
def rleaf (fopen : Nat → Bool) (s : Client) (d : List Char) : Option Client :=
  if 500 < d.length then none
  else
    match sscanf [.str] (cstr (d.take 50)) with
    | [.str szquit] =>
        if szquit = "quitmongoosetest".toList then none
        else if szquit = "rgetip".toList then
          match sscanf (List.replicate 9 .str) (cstr d) with
          | [_, _, _, _, _, _, .str szip, .str szmac, .str szname] =>
              some (take fopen s szip szmac szname)
          | _ => some s
        else some s
    | _ => some s

/-- A datagram the loop ends at. -/
def Ends (d : List Char) : Prop :=
  500 < d.length ∨ sscanf [.str] (cstr (d.take 50)) = [.str "quitmongoosetest".toList]

instance (d : List Char) : Decidable (Ends d) := inferInstanceAs (Decidable (_ ∨ _))

/-- What an announcement tells: the header is in the first 50 characters, and there are nine
fields. -/
def announced (d : List Char) : Option Found :=
  if sscanf [.str] (cstr (d.take 50)) = [.str "rgetip".toList] then
    match sscanf (List.replicate 9 .str) (cstr d) with
    | [_, _, _, _, _, _, .str szip, .str szmac, .str szname] => some ⟨szip, szmac, szname⟩
    | _ => none
  else none

/-- **What one turn does**: it ends the loop, takes an announcement, or does nothing. -/
theorem rleaf_eq (fopen : Nat → Bool) (s : Client) (d : List Char) :
    rleaf fopen s d =
      if Ends d then none
      else match announced d with
        | some f => some (take fopen s f.ip f.mac f.name)
        | none => some s := by
  by_cases hlen : 500 < d.length
  · rw [rleaf, if_pos hlen, if_pos (show Ends d from Or.inl hlen)]
  have hends : Ends d ↔ sscanf [.str] (cstr (d.take 50)) = [.str "quitmongoosetest".toList] :=
    or_iff_right hlen
  simp only [rleaf, if_neg hlen, hends, announced]
  generalize sscanf [.str] (cstr (d.take 50)) = header
  split
  · next szquit =>
    have hone : ∀ t, [Value.str szquit] = [.str t] ↔ szquit = t := by simp
    rw [if_congr (hone _) rfl rfl]
    by_cases hquit : szquit = "quitmongoosetest".toList
    · rw [if_pos hquit, if_pos hquit]
    rw [if_neg hquit, if_neg hquit]
    by_cases hget : szquit = "rgetip".toList
    · rw [if_pos hget, if_pos ((hone _).2 hget)]
      split <;> rfl
    · rw [if_neg hget, if_neg (mt (hone _).1 hget)]
  · next hnone => rw [if_neg (hnone _), if_neg (hnone _)]

theorem rleaf_announced {d : List Char} {f : Found} (hd : ¬ Ends d) (hf : announced d = some f)
    (fopen : Nat → Bool) (s : Client) :
    rleaf fopen s d = some (take fopen s f.ip f.mac f.name) := by
  rw [rleaf_eq, if_neg hd, hf]

theorem rleaf_ignored {d : List Char} (hd : ¬ Ends d) (hf : announced d = none)
    (fopen : Nat → Bool) (s : Client) : rleaf fopen s d = some s := by
  rw [rleaf_eq, if_neg hd, hf]

/-! ### What the hubs leave alone -/

/-- The globals `disconnect8` and `connect8` do not write. -/
def SameServer (s t : Client) : Prop :=
  t.gNum = s.gNum ∧ t.server = s.server ∧ t.portConnect8 = s.portConnect8

theorem SameServer.trans {s t u : Client} (h : SameServer s t) (h' : SameServer t u) :
    SameServer s u :=
  ⟨h'.1.trans h.1, h'.2.1.trans h.2.1, h'.2.2.trans h.2.2⟩

theorem SameServer.serverip {s t : Client} (h : SameServer s t) : t.serverip = s.serverip :=
  congrArg Found.ip h.2.1

theorem sameServer_foldl {f : Client → Nat → Client} (hf : ∀ s i, SameServer s (f s i))
    (is : List Nat) (s : Client) : SameServer s (is.foldl f s) := by
  induction is generalizing s with
  | nil => exact ⟨rfl, rfl, rfl⟩
  | cons i is ih => exact (hf s i).trans (ih (f s i))

theorem sameServer_disconnect8 (s : Client) : SameServer s (disconnect8 s) := by
  have hport : ∀ s i, SameServer s (disconnectPort s i) := by
    intro s i
    unfold disconnectPort
    split <;> exact ⟨rfl, rfl, rfl⟩
  exact sameServer_foldl hport (List.range 8) s

theorem sameServer_connectPort (fopen : Nat → Bool) (s : Client) (i : Nat) :
    SameServer s (connectPort fopen s i) := by
  unfold connectPort createConf
  split
  · split <;> exact ⟨rfl, rfl, rfl⟩
  · exact ⟨rfl, rfl, rfl⟩

theorem sameServer_connect8 (fopen : Nat → Bool) (s : Client) :
    SameServer s (connect8 fopen s) :=
  sameServer_foldl (sameServer_connectPort fopen) (List.range' 1 7) s

theorem sameServer_stop8 (s : Client) : SameServer s (stop8 s) := by
  unfold stop8
  split
  · exact sameServer_disconnect8 s
  · exact ⟨rfl, rfl, rfl⟩

/-- **An announcement is counted, and what it tells is taken over** unless its address is the
one the client has. -/
theorem take_server (fopen : Nat → Bool) (s : Client) (f : Found) :
    (take fopen s f.ip f.mac f.name).gNum = s.gNum + 1 ∧
      (take fopen s f.ip f.mac f.name).server = if s.serverip ≠ f.ip then f else s.server := by
  unfold take
  dsimp only
  by_cases hip : s.serverip ≠ f.ip
  · rw [if_pos hip, if_pos hip]
    obtain ⟨hnum, -, -⟩ := sameServer_stop8 { s with gNum := s.gNum + 1 }
    generalize stop8 { s with gNum := s.gNum + 1 } = t at hnum
    split
    · obtain ⟨hnum', hserver', -⟩ := sameServer_connect8 fopen (t.setServer f.ip f.mac f.name)
      exact ⟨hnum'.trans hnum, hserver'⟩
    · exact ⟨hnum, rfl⟩
  · rw [if_neg hip, if_neg hip]
    exact ⟨rfl, rfl⟩

end SerialServer.Main37
