import SerialServer.Discovery.Main37
import SerialServer.Discovery.Mrs

/-!
# SerialServer.Discovery.Exchange

A request, the announcement that answers it, and what the client makes of it.

The two programs agree through the positions of fields in a line. An announcement without a
gap is read back field by field, and one with a gap has too few fields to be read. The
request is less safe: `%d` leaves what follows the digits to the next `%s`, so a port such as
`4322x` moves the fields after it up.
-/

namespace SerialServer.Discovery

open Scan Mrs Main37

/-! ### Announcements, received -/

/-- What the client finds first in an announcement. -/
theorem header_msSer2net (srcip sn msip : List Char) (msport : Int) (dev : Identity) :
    sscanf [.str] (cstr ((msSer2net srcip msip msport dev sn).take 50)) =
      [.str "rgetip".toList] := by
  have hget : "rgetip".toList = ['r', 'g', 'e', 't', 'i', 'p'] := by decide
  have hline : msSer2net srcip msip msport dev sn = "rgetip".toList ++ ' ' ::
      line (announcement srcip sn msip msport dev).tail :=
    line_cons _ (List.cons_ne_nil _ _)
  have hcut : ∀ rest, cstr (("rgetip".toList ++ ' ' :: rest).take 50) =
      "rgetip".toList ++ ' ' :: cstr (rest.take 43) := by
    intro rest
    rw [hget]
    rfl
  rw [hline, hcut, sscanf, token_solid (by decide) (by decide)]
  rfl

section Announcements

variable {srcip sn msip : List Char} {msport : Int} {dev : Identity}

theorem not_ends_msSer2net (h : Echoed srcip sn msip msport) (hdev : dev.Plain) :
    ¬ Ends (msSer2net srcip msip msport dev sn) := by
  have hlen := length_msSer2net_le h hdev
  rintro (hlong | hquit)
  · exact absurd hlen (Nat.not_le.2 hlong)
  · rw [header_msSer2net] at hquit
    exact absurd hquit (by decide)

/-- The fields of an announcement that are not missing are what the client reads. -/
theorem sscanf_msSer2net (h : Echoed srcip sn msip msport) (hdev : dev.Plain) (n : Nat) :
    sscanf (List.replicate n .str) (cstr (msSer2net srcip msip msport dev sn)) =
      (((announcement srcip sn msip msport dev).filter (· ≠ [])).take n).map .str := by
  have htoken := token_announcement h hdev
  rw [msSer2net, cstr_line htoken]
  exact sscanf_line (fun f hf => (htoken f hf).solid) n

/-- Nothing is missing. -/
theorem filter_announcement (hall : dev.Complete) (hsrcip : srcip ≠ []) (hsn : sn ≠ [])
    (hmsip : msip ≠ []) (msport : Int) :
    (announcement srcip sn msip msport dev).filter (· ≠ []) =
      announcement srcip sn msip msport dev := by
  refine List.filter_eq_self.2 fun f hf => decide_eq_true ?_
  simp only [announcement, List.mem_cons, List.not_mem_nil, or_false] at hf
  obtain rfl | rfl | rfl | rfl | rfl | rfl | rfl | rfl | rfl := hf
  · decide
  · exact hsrcip
  · exact hsn
  · exact hmsip
  · exact intText_ne_nil msport
  · exact hall.ifname
  · exact hall.ifip
  · exact hall.ifmac
  · exact announcedName_ne_nil dev

/-- An announcement no part of which is missing is read back. -/
theorem announced_msSer2net (h : Echoed srcip sn msip msport) (hdev : dev.Plain)
    (hall : dev.Complete) (hsrcip : srcip ≠ []) (hsn : sn ≠ []) (hmsip : msip ≠ []) :
    announced (msSer2net srcip msip msport dev sn) =
      some ⟨dev.ifip, dev.ifmac, dev.announcedName⟩ := by
  rw [announced, if_pos (header_msSer2net srcip sn msip msport dev),
    sscanf_msSer2net h hdev, filter_announcement hall hsrcip hsn hmsip]
  rfl

/-- An announcement with a part missing is not read. -/
theorem announced_msSer2net_gap (h : Echoed srcip sn msip msport) (hdev : dev.Plain)
    (hgap : srcip = [] ∨ sn = [] ∨ msip = [] ∨ dev.ifname = [] ∨ dev.ifip = [] ∨
      dev.ifmac = []) :
    announced (msSer2net srcip msip msport dev sn) = none := by
  have hlt := length_announcement_lt msport hgap
  have hlen : ((((announcement srcip sn msip msport dev).filter (· ≠ [])).take 9).map
      Value.str).length ≠ 9 := by
    rw [List.length_map, List.length_take]
    omega
  rw [announced, if_pos (header_msSer2net srcip sn msip msport dev), sscanf_msSer2net h hdev]
  split
  · next heq => exact absurd (congrArg List.length heq) hlen
  · rfl

end Announcements

/-- What `thread_send` announces is an announcement of plain fields. -/
theorem echoed_threadSend {paraRip paraMsip : List Char} {paraSport : Int} (hrip : Token paraRip)
    (hmsip : Token paraMsip) (hrip_lt : paraRip.length < 30) (hmsip_lt : paraMsip.length < 30)
    (hsport : -2147483648 ≤ paraSport ∧ paraSport ≤ 2147483647) (i : Nat) :
    Echoed paraRip ("00:00:0".toList ++ intText (i % 2 : Nat)) paraMsip paraSport := by
  have htime : ∀ k : Nat, k < 2 → Token ("00:00:0".toList ++ intText k) ∧
      ("00:00:0".toList ++ intText k).length < 20 := by
    intro k hk
    match k, hk with
    | 0, _ => decide
    | 1, _ => decide
  obtain ⟨hsn, hsn_lt⟩ := htime (i % 2) (Nat.mod_lt _ (by decide))
  exact ⟨hrip, hsn, hmsip, hrip_lt, hsn_lt, hmsip_lt, hsport⟩

/-! ### The exchange -/

/-- What a reply has to echo. -/
def Echoes (reply clientip sztime : List Char) : Prop :=
  sscanf (List.replicate 3 .str) (cstr reply) =
    [.str "rgetip".toList, .str clientip, .str sztime]

instance (reply clientip sztime : List Char) : Decidable (Echoes reply clientip sztime) :=
  inferInstanceAs (Decidable (_ = _))

/-- **A device answers a request with its identity, and only a whole announcement counts.**
A request whose port is an integer is answered, and the answer echoes the address of the
client and the time; the client counts it, and takes the address, MAC and name of the device
over when the address is new. A request whose port does not begin with an integer is not
answered. An announcement with a part missing, in reply or by itself, changes nothing. -/
theorem exchange (fopen : Nat → Bool) (s : Client) {dev : Identity} (hdev : dev.Plain) :
    (∀ d pip replyPort clientip sztime port, Asks d pip replyPort clientip sztime →
      integer replyPort = some (port, []) → dev.Complete →
      ∃ reply t, threadRcv dev d = .replied pip port reply ∧ Echoes reply clientip sztime ∧
        rleaf fopen s reply = some t ∧ t.gNum = s.gNum + 1 ∧
        t.server = if s.serverip ≠ dev.ifip then ⟨dev.ifip, dev.ifmac, dev.announcedName⟩
          else s.server) ∧
    (∀ d pip replyPort clientip sztime, Asks d pip replyPort clientip sztime →
      integer replyPort = none → threadRcv dev d = .ignored) ∧
    (∀ srcip sn msip msport, Echoed srcip sn msip msport →
      (srcip = [] ∨ sn = [] ∨ msip = [] ∨ dev.ifname = [] ∨ dev.ifip = [] ∨ dev.ifmac = []) →
      rleaf fopen s (msSer2net srcip msip msport dev sn) = some s) ∧
    (∀ paraRip paraMsip paraSport i, Token paraRip → Token paraMsip → paraRip.length < 30 →
      paraMsip.length < 30 → -2147483648 ≤ paraSport ∧ paraSport ≤ 2147483647 →
      (paraRip = [] ∨ paraMsip = [] ∨ dev.ifname = [] ∨ dev.ifip = [] ∨ dev.ifmac = []) →
      rleaf fopen s (threadSend paraRip paraMsip paraSport dev i) = some s) := by
  have hgap : ∀ {srcip sn msip : List Char} {msport : Int}, Echoed srcip sn msip msport →
      (srcip = [] ∨ sn = [] ∨ msip = [] ∨ dev.ifname = [] ∨ dev.ifip = [] ∨ dev.ifmac = []) →
      rleaf fopen s (msSer2net srcip msip msport dev sn) = some s := fun h hnil =>
    rleaf_ignored (not_ends_msSer2net h hdev) (announced_msSer2net_gap h hdev hnil) fopen s
  refine ⟨?_, fun d pip replyPort clientip sztime h hport => threadRcv_noPort h hport dev,
    fun srcip sn msip msport h hnil => hgap h hnil, ?_⟩
  · intro d pip replyPort clientip sztime port h hport hall
    obtain ⟨⟨hpip, hpip_ne⟩, ⟨hclient, hclient_ne⟩, htime, htime_ne⟩ := h.field
    have hecho : Echoed clientip sztime pip port :=
      ⟨hclient, htime, hpip, Nat.lt_trans h.clientip_lt (by decide), h.sztime_lt, h.pip_lt,
        integer_range hport⟩
    have hfound := announced_msSer2net hecho hdev hall hclient_ne htime_ne hpip_ne
    obtain ⟨hnum, hserver⟩ := take_server fopen s ⟨dev.ifip, dev.ifmac, dev.announcedName⟩
    refine ⟨_, _, threadRcv_asks h hport dev, ?_,
      rleaf_announced (not_ends_msSer2net hecho hdev) hfound fopen s, hnum, hserver⟩
    rw [Echoes, sscanf_msSer2net hecho hdev,
      filter_announcement hall hclient_ne htime_ne hpip_ne]
    rfl
  · intro paraRip paraMsip paraSport i hrip hmsip hrip_lt hmsip_lt hsport hnil
    refine hgap (echoed_threadSend hrip hmsip hrip_lt hmsip_lt hsport i) ?_
    obtain h | h | h | h | h := hnil <;> simp [h]

/-- A device, and the request the client itself sends. -/
theorem exchange_mcGetip :
    let dev : Identity := ⟨"eth0".toList, "10.0.0.5".toList, "00:11:22:33:44:55".toList,
      "netport".toList⟩
    let s : Client := ⟨0, "unknown".toList, [], [], 255, 255, fun _ => none, []⟩
    ∃ reply t, threadRcv dev (mcGetip "12:00:00".toList) =
        .replied "226.1.1.2".toList 4322 reply ∧
      Echoes reply "192.168.1.11".toList "12:00:00".toList ∧
      rleaf (fun _ => true) s reply = some t ∧ t.gNum = s.gNum + 1 ∧
      t.server = ⟨"10.0.0.5".toList, "00:11:22:33:44:55".toList, "netport_ver1.02".toList⟩ := by
  intro dev s
  have hdev : dev.Plain := by constructor <;> decide
  have hall : dev.Complete := by constructor <;> decide
  have hasks : Asks (mcGetip "12:00:00".toList) "226.1.1.2".toList "4322".toList
      "192.168.1.11".toList "12:00:00".toList := by constructor <;> decide
  obtain ⟨reply, t, h, hecho, hleaf, hnum, hserver⟩ :=
    (exchange (fun _ => true) s hdev).1 _ _ _ _ _ 4322 hasks (by decide) hall
  exact ⟨reply, t, h, hecho, hleaf, hnum, hserver⟩

/-- A port with a letter behind its digits: the letter is read as the address of the client. -/
theorem not_echoes :
    ¬ ∀ (dev : Identity) (d pip replyPort clientip sztime : List Char),
      dev.Plain → dev.Complete → Asks d pip replyPort clientip sztime →
      ∀ msip port reply, threadRcv dev d = .replied msip port reply →
        Echoes reply clientip sztime := by
  intro h
  have hdev : Identity.Plain ⟨"eth0".toList, "10.0.0.5".toList, "00:11:22:33:44:55".toList,
      "netport".toList⟩ := by constructor <;> decide
  have hall : Identity.Complete ⟨"eth0".toList, "10.0.0.5".toList, "00:11:22:33:44:55".toList,
      "netport".toList⟩ := by constructor <;> decide
  have hasks : Asks "getip 226.1.1.2 4322x 192.168.1.11 12:00:00".toList "226.1.1.2".toList
      "4322x".toList "192.168.1.11".toList "12:00:00".toList := by constructor <;> decide
  have hecho := h _ _ _ _ _ _ hdev hall hasks "226.1.1.2".toList 4322
    "rgetip x 192.168.1.11 226.1.1.2 4322 eth0 10.0.0.5 00:11:22:33:44:55 netport_ver1.02".toList
    (by decide)
  exact absurd hecho (by decide)

end SerialServer.Discovery
