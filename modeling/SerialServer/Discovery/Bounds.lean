import SerialServer.Core.Stored
import SerialServer.Discovery.Main37
import SerialServer.Discovery.Mrs

/-!
# SerialServer.Discovery.Bounds

What a received datagram is stored into.

Both receive loops scan a datagram with `%s` conversions that have no width, into buffers of
20 to 200 bytes. What a conversion stores is a word of the datagram, so whether it fits can
be seen from the words (`tokens_fit_iff`): the client is safe as long as it looks for the
header, which it does in the first 50 characters, and the reply of the device is always
short enough; everything else depends on the sender.
-/

namespace SerialServer.Discovery

open Scan Mrs Main37

/-! ### The device -/

/-- The buffers of `thread_rcv`. -/
inductive RcvBuffer
  | header
  | pip
  | clientip
  | sztime
  | paraNewIP
  | paraNetmask
  deriving Repr, DecidableEq

/-- Their sizes. -/
def RcvBuffer.size : RcvBuffer → Nat
  | .header => 30
  | .pip => 30
  | .clientip => 20
  | .sztime => 20
  | .paraNewIP => 30
  | .paraNetmask => 30

/-- `thread_rcv`: what it stores of a datagram. -/
def rcvStored (d : List Char) : List (RcvBuffer × List Char) :=
  let paraRbuf := cstr (d.take 512)
  let first := sscanf [.str] paraRbuf
  stored [some .header] first ++
    if first = [.str "getip".toList] then
      stored [some .header, some .pip, none, some .clientip, some .sztime]
        (sscanf [.str, .str, .int, .str, .str] paraRbuf)
    else if first = [.str "changeip".toList] then
      stored [some .header, some .paraNewIP, some .paraNetmask] (sscanf [.str, .str, .str] paraRbuf)
    else []

/-- An identity that fits the buffers of `ms_ser2net`. -/
structure Short (dev : Identity) : Prop where
  ifname_lt : dev.ifname.length < 30
  ifip_lt : dev.ifip.length < 30
  ifmac_lt : dev.ifmac.length < 40
  hostname_lt : dev.hostname.length < 30

/-- Nothing that is stored of the datagram, and no reply to it, is too long for its buffer. -/
structure RcvInBounds (dev : Identity) (d : List Char) : Prop where
  stored : InBounds RcvBuffer.size (rcvStored d)
  reply : ∀ pip replyPort msbuf, threadRcv dev d = .replied pip replyPort msbuf →
    msbuf.length < 1024

/-- The words that are read after the port: what is left of the third word, and the next. -/
def afterPort : List (List Char) → List (List Char)
  | _ :: _ :: port :: ws =>
      match integer port with
      | some (_, rest) => if rest = [] then ws else rest :: ws
      | none => []
  | _ => []

/-- The words of a datagram that fits the device. -/
def RcvWords (d : List Char) : Prop :=
  let ws := words (cstr (d.take 512))
  Within [30] ws ∧
    (ws.head? = some "getip".toList → Within [30, 30] ws ∧ Within [20, 20] (afterPort ws)) ∧
    (ws.head? = some "changeip".toList → Within [30, 30, 30] ws)

theorem integer_of_token_none {text : List Char} (h : token text = none) : integer text = none := by
  have hd : text.dropWhile isSpace = [] := by
    unfold token at h
    split at h
    · next hd => exact hd
    · cases h
  rw [integer, hd]
  rfl

/-- The first word is what a scan for one string gives. -/
theorem sscanf_str_eq_iff (text t : List Char) :
    sscanf [.str] text = [.str t] ↔ (words text).head? = some t := by
  have h := sscanf_words 1 text
  rw [List.replicate_one] at h
  rw [h]
  cases words text <;> simp

/-- The conversions behind the first two words of a request. The number ends in the third
word, and what is left of that is read like a word. -/
theorem inBounds_port (header pip text : List Char) :
    InBounds RcvBuffer.size (stored [none, some .clientip, some .sztime]
        (sscanf [.int, .str, .str] text)) ↔
      Within [20, 20] (afterPort (header :: pip :: words text)) := by
  rw [sscanf]
  cases htoken : token text with
  | none =>
    rw [integer_of_token_none htoken, words_of_token_none htoken]
    exact iff_of_true inBounds_nil trivial
  | some r =>
    obtain ⟨port, text'⟩ := r
    obtain ⟨-, hsolid, -, hspace⟩ := token_spec htoken
    rw [integer_token htoken, words_of_token htoken, afterPort]
    cases hport : integer port with
    | none => exact iff_of_true inBounds_nil trivial
    | some r =>
      obtain ⟨v, rest⟩ := r
      have hrest : Solid rest := fun c hc => hsolid c (mem_of_integer hport hc)
      have hwords := words_append hrest hspace
      refine (inBounds_words RcvBuffer.size [.clientip, .sztime] (rest ++ text')).trans ?_
      rw [hwords]
      rfl

/-- The format of a request. -/
theorem inBounds_getip (text : List Char) :
    InBounds RcvBuffer.size (stored [some .header, some .pip, none, some .clientip, some .sztime]
        (sscanf [.str, .str, .int, .str, .str] text)) ↔
      Within [30, 30] (words text) ∧ Within [20, 20] (afterPort (words text)) := by
  cases h₁ : token text with
  | none =>
    rw [words_of_token_none h₁]
    exact iff_of_true (inBounds_str_none h₁) ⟨trivial, trivial⟩
  | some r =>
    obtain ⟨header, text₁⟩ := r
    rw [words_of_token h₁, inBounds_str h₁]
    cases h₂ : token text₁ with
    | none =>
      rw [words_of_token_none h₂]
      exact ⟨fun h => ⟨⟨h.1, trivial⟩, trivial⟩, fun h => ⟨h.1.1, inBounds_str_none h₂⟩⟩
    | some r =>
      obtain ⟨pip, text₂⟩ := r
      rw [words_of_token h₂, inBounds_str h₂, inBounds_port header pip]
      exact ⟨fun h => ⟨⟨h.1, h.2.1, trivial⟩, h.2.2⟩, fun h => ⟨h.1.1, h.1.2.1, h.2⟩⟩

/-- What the device stores fits when the words of the datagram do. -/
theorem inBounds_rcvStored (d : List Char) :
    InBounds RcvBuffer.size (rcvStored d) ↔ RcvWords d := by
  unfold rcvStored RcvWords
  dsimp only
  generalize cstr (d.take 512) = text
  have hfirst := inBounds_words RcvBuffer.size [.header] text
  have hchange := inBounds_words RcvBuffer.size [.header, .paraNewIP, .paraNetmask] text
  rw [inBounds_append]
  refine and_congr hfirst ?_
  simp only [sscanf_str_eq_iff]
  by_cases hget : (words text).head? = some "getip".toList
  · have hne : ¬ (words text).head? = some "changeip".toList := by
      rw [hget]
      decide
    rw [if_pos hget]
    exact (inBounds_getip text).trans ⟨fun h => ⟨fun _ => h, fun h' => absurd h' hne⟩,
      fun h => h.1 hget⟩
  rw [if_neg hget]
  by_cases hchangeip : (words text).head? = some "changeip".toList
  · rw [if_pos hchangeip]
    exact hchange.trans ⟨fun h => ⟨fun h' => absurd h' hget, fun _ => h⟩, fun h => h.2 hchangeip⟩
  · rw [if_neg hchangeip]
    exact iff_of_true inBounds_nil ⟨fun h => absurd h hget, fun h => absurd h hchangeip⟩

/-! ### The reply -/

/-- What a reply is made of. -/
theorem threadRcv_replied {dev : Identity} {d pip msbuf : List Char} {replyPort : Int}
    (h : threadRcv dev d = .replied pip replyPort msbuf) :
    ∃ header clientip sztime, sscanf [.str, .str, .int, .str, .str] (cstr (d.take 512)) =
        [header, .str pip, .int replyPort, .str clientip, .str sztime] ∧
      msbuf = msSer2net clientip pip replyPort dev sztime := by
  unfold threadRcv at h
  dsimp only at h
  split at h
  · split at h
    · split at h
      · next header _ _ clientip sztime hscan =>
        obtain ⟨rfl, rfl, rfl⟩ := Turn.replied.inj h
        exact ⟨header, clientip, sztime, hscan, rfl⟩
      · cases h
    · split at h
      · split at h <;> cases h
      · cases h
  · cases h

/-- **A reply is always short enough**: what it takes from the datagram are different parts of
it. -/
theorem length_reply_lt {dev : Identity} (hdev : Short dev) {d pip msbuf : List Char}
    {replyPort : Int} (h : threadRcv dev d = .replied pip replyPort msbuf) :
    msbuf.length < 1024 := by
  obtain ⟨header, clientip, sztime, hscan, rfl⟩ := threadRcv_replied h
  -- The strings are different parts of 512 characters, so they cannot all be long.
  have hparts := totalLength_sscanf_le [.str, .str, .int, .str, .str] (cstr (d.take 512))
  have htext : (cstr (d.take 512)).length ≤ 512 :=
    Nat.le_trans (List.takeWhile_prefix _).length_le (List.length_take_le 512 d)
  have hmem : .int replyPort ∈ sscanf [.str, .str, .int, .str, .str] (cstr (d.take 512)) := by
    rw [hscan]
    simp
  have hport := length_intText_le (range_of_mem_sscanf hmem)
  rw [hscan] at hparts
  simp only [totalLength, Value.length] at hparts
  have hifname := hdev.ifname_lt
  have hifip := hdev.ifip_lt
  have hifmac := hdev.ifmac_lt
  have hhostname := hdev.hostname_lt
  rw [length_msSer2net]
  omega

/-! ### The client -/

/-- The buffers of `rleaf`, its own and the three it copies to. -/
inductive RleafBuffer
  | szquit
  | szip
  | szmac
  | szname
  | serverip
  | servermac
  | servername
  deriving Repr, DecidableEq

/-- Their sizes. -/
def RleafBuffer.size : RleafBuffer → Nat
  | .szquit => 200
  | .szip => 100
  | .szmac => 100
  | .szname => 100
  | .serverip => 100
  | .servermac => 100
  | .servername => 100

/-- The buffers of the nine fields of an announcement. -/
def rleafFields : List RleafBuffer :=
  [.szquit, .szquit, .szquit, .szquit, .szquit, .szquit, .szip, .szmac, .szname]

/-- What `rleaf` copies when all fields have been read. -/
def rleafCopied (s : Client) : List Value → List (RleafBuffer × List Char)
  | [_, _, _, _, _, _, .str szip, .str szmac, .str szname] =>
      if s.serverip ≠ szip then [(.serverip, szip), (.servermac, szmac), (.servername, szname)]
      else []
  | _ => []

/-- `rleaf`: what it stores of a datagram. -/
def rleafStored (s : Client) (d : List Char) : List (RleafBuffer × List Char) :=
  let first := sscanf [.str] (cstr (d.take 50))
  stored [some .szquit] first ++
    if first = [.str "rgetip".toList] then
      let fields := sscanf (List.replicate 9 .str) (cstr d)
      stored (rleafFields.map some) fields ++ rleafCopied s fields
    else []

/-- The words of a datagram that fits the client: nine of them matter, if the first one in
the first 50 characters is the header. -/
def RleafWords (d : List Char) : Prop :=
  (words (cstr (d.take 50))).head? = some "rgetip".toList →
    Within [200, 200, 200, 200, 200, 200, 100, 100, 100] (words (cstr d))

/-- What is copied has been stored in a buffer of the same size before. -/
theorem inBounds_rleafCopied {s : Client} {vs : List Value}
    (h : InBounds RleafBuffer.size (stored (rleafFields.map some) vs)) :
    InBounds RleafBuffer.size (rleafCopied s vs) := by
  unfold rleafCopied
  split
  · next szip szmac szname =>
    have hip := h (.szip, szip) (mem_stored (i := 6) rfl rfl)
    have hmac := h (.szmac, szmac) (mem_stored (i := 7) rfl rfl)
    have hname := h (.szname, szname) (mem_stored (i := 8) rfl rfl)
    split
    · exact inBounds_cons.2 ⟨hip, inBounds_cons.2 ⟨hmac, inBounds_cons.2 ⟨hname, inBounds_nil⟩⟩⟩
    · exact inBounds_nil
  · exact inBounds_nil

/-- The header always fits. -/
theorem within_header (d : List Char) : Within [200] (words (cstr (d.take 50))) := by
  have htext : (cstr (d.take 50)).length ≤ 50 :=
    Nat.le_trans (List.takeWhile_prefix _).length_le (List.length_take_le 50 d)
  cases htoken : token (cstr (d.take 50)) with
  | none =>
    rw [words_of_token_none htoken]
    trivial
  | some r =>
    obtain ⟨t, rest⟩ := r
    have hlen := length_token htoken
    rw [words_of_token htoken]
    exact ⟨by omega, trivial⟩

/-- What the client stores fits when the words of the datagram do. -/
theorem inBounds_rleafStored (s : Client) (d : List Char) :
    InBounds RleafBuffer.size (rleafStored s d) ↔ RleafWords d := by
  unfold rleafStored RleafWords
  dsimp only
  have hfirst := (inBounds_words RleafBuffer.size [.szquit] (cstr (d.take 50))).2 (within_header d)
  have hfields := inBounds_words RleafBuffer.size rleafFields (cstr d)
  simp only [sscanf_str_eq_iff]
  rw [inBounds_append]
  by_cases hget : (words (cstr (d.take 50))).head? = some "rgetip".toList
  · rw [if_pos hget, inBounds_append]
    constructor
    · rintro ⟨-, hstored, -⟩ -
      exact hfields.1 hstored
    · intro h
      have hstored := hfields.2 (h hget)
      exact ⟨hfirst, hstored, inBounds_rleafCopied hstored⟩
  · rw [if_neg hget]
    exact iff_of_true ⟨hfirst, inBounds_nil⟩ fun h => absurd h hget

/-- Nothing that is stored of the datagram is too long for its buffer. -/
def RleafInBounds (s : Client) (d : List Char) : Prop := InBounds RleafBuffer.size (rleafStored s d)

/-! ### Both -/

/-- **A received datagram stays inside the buffers exactly when its words are short enough**:
for the device those a `getip` or `changeip` is read into, for the client, when its first 50
characters begin with the header, nine of them. -/
theorem tokens_fit_iff (dev : Identity) (hdev : Short dev) (s : Client) (d : List Char) :
    (RcvInBounds dev d ↔ RcvWords d) ∧ (RleafInBounds s d ↔ RleafWords d) := by
  refine ⟨⟨fun h => (inBounds_rcvStored d).1 h.stored, fun h => ?_⟩, inBounds_rleafStored s d⟩
  exact ⟨(inBounds_rcvStored d).2 h, fun _ _ _ hreply => length_reply_lt hdev hreply⟩

/-- A request of ordinary fields, and an announcement. -/
theorem tokens_fit_iff_request :
    let dev : Identity := ⟨"eth0".toList, "10.0.0.5".toList, "00:11".toList, "netport".toList⟩
    let s : Client := ⟨0, [], [], [], 0, 0, fun _ => none, []⟩
    let d := "getip 226.1.1.2 4322 192.168.1.11 12:00:00".toList
    (RcvInBounds dev d ↔ RcvWords d) ∧ (RleafInBounds s d ↔ RleafWords d) :=
  tokens_fit_iff _ ⟨by decide, by decide, by decide, by decide⟩ _ _

/-- An address of 30 characters is written past the buffer of the device, and one of 100 past
that of the client. -/
theorem not_tokens_fit :
    (¬ ∀ (dev : Identity) (d : List Char), d.length ≤ 512 → RcvInBounds dev d) ∧
      ¬ ∀ (s : Client) (d : List Char), d.length ≤ 500 → RleafInBounds s d := by
  refine ⟨fun h => ?_, fun h => ?_⟩
  · have hstored := (h ⟨[], [], [], []⟩ ("getip ".toList ++ List.replicate 30 '1')
      (by decide)).stored
    revert hstored
    decide
  · have hstored := h ⟨0, [], [], [], 0, 0, fun _ => none, []⟩
      ("rgetip 1 2 3 4 5 ".toList ++ List.replicate 100 '1') (by decide)
    revert hstored
    unfold RleafInBounds
    decide

end SerialServer.Discovery
