import SerialServer.Core.Scan

/-!
# SerialServer.Discovery.Mrs

The side of the device (`mrs_v102.c`): a client finds devices by a `getip` request to a
multicast group, and each device announces itself in reply, and by itself every few seconds.

Both datagrams are lines of text. The request has five fields and the announcement nine, and
either is read by position alone, so a line with a field missing must not be taken for one
that is complete (`length_announcement_lt`).
-/

namespace SerialServer.Mrs

open Scan

/-- What a device finds out about itself before it announces: the name of its interface, the
interface's address and MAC, and the host name. -/
structure Identity where
  ifname : List Char
  ifip : List Char
  ifmac : List Char
  hostname : List Char
  deriving Repr, DecidableEq

/-- An identity of plain fields that fit the buffers they are read into. -/
structure Identity.Plain (dev : Identity) : Prop where
  ifname : Token dev.ifname
  ifip : Token dev.ifip
  ifmac : Token dev.ifmac
  hostname : Token dev.hostname
  ifname_lt : dev.ifname.length < 30
  ifip_lt : dev.ifip.length < 30
  ifmac_lt : dev.ifmac.length < 40
  hostname_lt : dev.hostname.length < 30

/-- An identity no part of which is missing. -/
structure Identity.Complete (dev : Identity) : Prop where
  ifname : dev.ifname ≠ []
  ifip : dev.ifip ≠ []
  ifmac : dev.ifmac ≠ []

/-- What an announcement carries besides the identity, as plain fields that fit the buffers
they are read into. -/
structure Echoed (srcip sn msip : List Char) (msport : Int) : Prop where
  srcip_token : Token srcip
  sn_token : Token sn
  msip_token : Token msip
  srcip_lt : srcip.length < 30
  sn_lt : sn.length < 20
  msip_lt : msip.length < 30
  msport_int : -2147483648 ≤ msport ∧ msport ≤ 2147483647

/-- The name a device announces. -/
def Identity.announcedName (dev : Identity) : List Char := dev.hostname ++ "_ver1.02".toList

/-- The fields of an announcement. -/
def announcement (srcip sn msip : List Char) (msport : Int) (dev : Identity) : List (List Char) :=
  ["rgetip".toList, srcip, sn, msip, intText msport, dev.ifname, dev.ifip, dev.ifmac,
    dev.announcedName]

/-- `ms_ser2net`: the datagram it sends. -/
def msSer2net (srcip msip : List Char) (msport : Int) (dev : Identity) (sn : List Char) :
    List Char :=
  line (announcement srcip sn msip msport dev)

/-- `thread_send`: what it announces at its turn `i`. -/
def threadSend (paraRip paraMsip : List Char) (paraSport : Int) (dev : Identity) (i : Nat) :
    List Char :=
  msSer2net paraRip paraMsip paraSport dev ("00:00:0".toList ++ intText (i % 2 : Nat))

/-- What a turn of `thread_rcv` comes to. -/
inductive Turn
  | ignored
  | replied (pip : List Char) (replyPort : Int) (msbuf : List Char)
  | changed (newIP netmask : List Char)
  deriving Repr, DecidableEq

/-- `thread_rcv`: one turn of its loop, on the datagram `mrcv` reads. -/
def threadRcv (dev : Identity) (d : List Char) : Turn :=
  let paraRbuf := cstr (d.take 512)
  match sscanf [.str] paraRbuf with
  | [.str header] =>
      if header = "getip".toList then
        match sscanf [.str, .str, .int, .str, .str] paraRbuf with
        | [_, .str pip, .int replyPort, .str clientip, .str sztime] =>
            .replied pip replyPort (msSer2net clientip pip replyPort dev sztime)
        | _ => .ignored
      else if header = "changeip".toList then
        match sscanf [.str, .str, .str] paraRbuf with
        | [_, .str newIP, .str netmask] => .changed newIP netmask
        | _ => .ignored
      else .ignored
  | _ => .ignored

/-! ### Announcements -/

theorem token_announcedName {dev : Identity} (h : dev.Plain) : Token dev.announcedName := by
  have hver : Token "_ver1.02".toList := by decide
  refine ⟨h.hostname.solid.append hver.solid, fun c hc => ?_⟩
  rcases List.mem_append.1 hc with hc | hc
  · exact h.hostname.noNul c hc
  · exact hver.noNul c hc

theorem announcedName_ne_nil (dev : Identity) : dev.announcedName ≠ [] := by
  intro h
  have hver : "_ver1.02".toList = [] := (List.append_eq_nil_iff.1 h).2
  exact absurd hver (by decide)

section Announcements

variable {srcip sn msip : List Char} {msport : Int} {dev : Identity}

/-- The fields of an announcement are fields when those it is made from are. -/
theorem token_announcement (h : Echoed srcip sn msip msport) (hdev : dev.Plain) :
    ∀ f ∈ announcement srcip sn msip msport dev, Token f := by
  intro f hf
  simp only [announcement, List.mem_cons, List.not_mem_nil, or_false] at hf
  obtain rfl | rfl | rfl | rfl | rfl | rfl | rfl | rfl | rfl := hf
  · decide
  · exact h.srcip_token
  · exact h.sn_token
  · exact h.msip_token
  · exact token_intText msport
  · exact hdev.ifname
  · exact hdev.ifip
  · exact hdev.ifmac
  · exact token_announcedName hdev

/-- The length of an announcement: header, version and blanks have 22 characters. -/
theorem length_msSer2net (srcip msip : List Char) (msport : Int) (dev : Identity)
    (sn : List Char) : (msSer2net srcip msip msport dev sn).length =
      22 + srcip.length + sn.length + msip.length + (intText msport).length +
        dev.ifname.length + dev.ifip.length + dev.ifmac.length + dev.hostname.length := by
  have hget : "rgetip".toList.length = 6 := by decide
  have hver : "_ver1.02".toList.length = 8 := by decide
  simp only [msSer2net, announcement, line, Identity.announcedName, List.length_append,
    List.length_cons, hget, hver]
  omega

/-- An announcement fits what the client asks for. -/
theorem length_msSer2net_le (h : Echoed srcip sn msip msport) (hdev : dev.Plain) :
    (msSer2net srcip msip msport dev sn).length ≤ 500 := by
  have hport := length_intText_le h.msport_int
  have hsrcip := h.srcip_lt
  have hsn := h.sn_lt
  have hmsip := h.msip_lt
  have hifname := hdev.ifname_lt
  have hifip := hdev.ifip_lt
  have hifmac := hdev.ifmac_lt
  have hhostname := hdev.hostname_lt
  rw [length_msSer2net]
  omega

/-- An announcement with a field missing has fewer than nine to be read. -/
theorem length_announcement_lt (msport : Int)
    (h : srcip = [] ∨ sn = [] ∨ msip = [] ∨ dev.ifname = [] ∨ dev.ifip = [] ∨ dev.ifmac = []) :
    ((announcement srcip sn msip msport dev).filter (· ≠ [])).length < 9 := by
  have hmem : [] ∈ announcement srcip sn msip msport dev := by
    obtain h | h | h | h | h | h := h <;> simp [announcement, h]
  exact List.length_filter_lt_length_iff_exists.2 ⟨[], hmem, by decide⟩

end Announcements

/-! ### Requests -/

/-- The five fields the text of a request has, white space apart. -/
def requestFields (d : List Char) : List Value := sscanf (List.replicate 5 .str) (cstr (d.take 512))

/-- A datagram that is a `getip` request, with fields that fit the buffers they are read
into. -/
structure Asks (d pip replyPort clientip sztime : List Char) : Prop where
  fields : requestFields d =
    [.str "getip".toList, .str pip, .str replyPort, .str clientip, .str sztime]
  pip_lt : pip.length < 30
  clientip_lt : clientip.length < 20
  sztime_lt : sztime.length < 20

section Asks

variable {d pip replyPort clientip sztime : List Char}

/-- The fields of a request are fields, and none is empty. -/
theorem Asks.field (h : Asks d pip replyPort clientip sztime) :
    (Token pip ∧ pip ≠ []) ∧ (Token clientip ∧ clientip ≠ []) ∧ Token sztime ∧ sztime ≠ [] := by
  have htoken : ∀ t, .str t ∈ requestFields d → Token t ∧ t ≠ [] := fun t ht =>
    token_of_mem_sscanf (cstr_noNul _) ht
  rw [h.fields] at htoken
  exact ⟨htoken pip (by simp), htoken clientip (by simp), htoken sztime (by simp)⟩

theorem sscanf_str_eq_cons {convs : List Conv} {text t : List Char} {vs : List Value}
    (h : sscanf (.str :: convs) text = .str t :: vs) :
    ∃ rest, token text = some (t, rest) ∧ sscanf convs rest = vs := by
  rw [sscanf] at h
  split at h
  · next u rest htoken =>
    obtain ⟨hu, hvs⟩ := List.cons.inj h
    obtain rfl := Value.str.inj hu
    exact ⟨rest, htoken, hvs⟩
  · cases h

/-- The tokens of a request, one after the other. -/
theorem Asks.tokens (h : Asks d pip replyPort clientip sztime) :
    ∃ r₁ r₂ r₃ r₄ r₅, token (cstr (d.take 512)) = some ("getip".toList, r₁) ∧
      token r₁ = some (pip, r₂) ∧ token r₂ = some (replyPort, r₃) ∧
      token r₃ = some (clientip, r₄) ∧ token r₄ = some (sztime, r₅) := by
  obtain ⟨r₁, h₁, hrest⟩ := sscanf_str_eq_cons h.fields
  obtain ⟨r₂, h₂, hrest⟩ := sscanf_str_eq_cons hrest
  obtain ⟨r₃, h₃, hrest⟩ := sscanf_str_eq_cons hrest
  obtain ⟨r₄, h₄, hrest⟩ := sscanf_str_eq_cons hrest
  obtain ⟨r₅, h₅, -⟩ := sscanf_str_eq_cons hrest
  exact ⟨r₁, r₂, r₃, r₄, r₅, h₁, h₂, h₃, h₄, h₅⟩

/-- **A request with an integer for its port is answered** with an announcement that has the
address of the client and the time in it. -/
theorem threadRcv_asks (h : Asks d pip replyPort clientip sztime) {port : Int}
    (hport : integer replyPort = some (port, [])) (dev : Identity) :
    threadRcv dev d = .replied pip port (msSer2net clientip pip port dev sztime) := by
  obtain ⟨r₁, r₂, r₃, r₄, r₅, h₁, h₂, h₃, h₄, h₅⟩ := h.tokens
  simp only [threadRcv, sscanf, h₁, h₂, integer_token h₃, hport, Option.map_some, List.nil_append,
    h₄, h₅, if_true]

/-- A request whose port does not begin with an integer is not answered. -/
theorem threadRcv_noPort (h : Asks d pip replyPort clientip sztime)
    (hport : integer replyPort = none) (dev : Identity) : threadRcv dev d = .ignored := by
  obtain ⟨r₁, r₂, r₃, r₄, r₅, h₁, h₂, h₃, -, -⟩ := h.tokens
  simp only [threadRcv, sscanf, h₁, h₂, integer_token h₃, hport, Option.map_none, if_true]

end Asks

end SerialServer.Mrs
