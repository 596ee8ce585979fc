import SerialServer.Core.Escape
import SerialServer.Reporter.Telnet

/-!
# SerialServer.Reporter.TelnetStream

Telnet streams, written and scanned.

A telnet stream is a sequence of `Item`s: bytes of data and commands. `Item.encode` is how
the reporter writes them: data bytes with their IACs doubled (`handle_dev_fd_read`), short
commands as they are (`send_i`), suboptions between IAC SB and IAC SE with the IACs inside
doubled (`telnet_send_option`). `process_telnet_data` is the scanner of both ends. It works
on what one `read` returned and keeps the command it is in the middle of in its
`telnet_data_t`, so it does not matter where the stream was cut (`scanChunks_eq`), and
scanning a written stream gives its data and its commands back (`scanChunks_encode`).
-/

namespace SerialServer.Dataxfer

open Escape (double)

/-- Interpret as command: the byte 255. -/
abbrev TN_IAC : Byte := 255

/-! ### Scanning in pieces -/

/-- What was scanned before is not looked at again. -/
theorem scanByte_from (maxCmd : Nat) (s : TelnetScan) (b : Byte) :
    scanByte maxCmd s b =
      ⟨(scanByte maxCmd ⟨s.td, [], []⟩ b).td, s.data ++ (scanByte maxCmd ⟨s.td, [], []⟩ b).data,
        s.cmds ++ (scanByte maxCmd ⟨s.td, [], []⟩ b).cmds⟩ := by
  simp only [scanByte]
  repeat' split
  all_goals simp

theorem foldl_scanByte_from (maxCmd : Nat) (s : TelnetScan) (bs : List Byte) :
    bs.foldl (scanByte maxCmd) s =
      ⟨(processTelnetData maxCmd s.td bs).td, s.data ++ (processTelnetData maxCmd s.td bs).data,
        s.cmds ++ (processTelnetData maxCmd s.td bs).cmds⟩ := by
  rw [processTelnetData]
  induction bs generalizing s with
  | nil => simp
  | cons b bs ih =>
    rw [List.foldl_cons, List.foldl_cons, ih, ih (scanByte maxCmd ⟨s.td, [], []⟩ b),
      scanByte_from maxCmd s b]
    simp only [List.append_assoc]

/-- Data that is scanned in two parts. -/
theorem processTelnetData_append (maxCmd : Nat) (td : TelnetData) (xs ys : List Byte) :
    processTelnetData maxCmd td (xs ++ ys) =
      ⟨(processTelnetData maxCmd (processTelnetData maxCmd td xs).td ys).td,
        (processTelnetData maxCmd td xs).data ++
          (processTelnetData maxCmd (processTelnetData maxCmd td xs).td ys).data,
        (processTelnetData maxCmd td xs).cmds ++
          (processTelnetData maxCmd (processTelnetData maxCmd td xs).td ys).cmds⟩ := by
  rw [processTelnetData, List.foldl_append, foldl_scanByte_from]
  rfl

/-- The reads of a connection, one after the other. -/
def scanChunks (maxCmd : Nat) (td : TelnetData) (chunks : List (List Byte)) : TelnetScan :=
  chunks.foldl (fun s chunk =>
    let r := processTelnetData maxCmd s.td chunk
    ⟨r.td, s.data ++ r.data, s.cmds ++ r.cmds⟩) ⟨td, [], []⟩

/-- **It does not matter where the stream is cut.** -/
theorem scanChunks_eq (maxCmd : Nat) (td : TelnetData) (chunks : List (List Byte)) :
    scanChunks maxCmd td chunks = processTelnetData maxCmd td chunks.flatten := by
  -- A read goes on with the fold that the reads before it have begun.
  have hstep : (fun (s : TelnetScan) chunk =>
      (⟨(processTelnetData maxCmd s.td chunk).td,
        s.data ++ (processTelnetData maxCmd s.td chunk).data,
        s.cmds ++ (processTelnetData maxCmd s.td chunk).cmds⟩ : TelnetScan)) =
      fun s chunk => chunk.foldl (scanByte maxCmd) s := by
    funext s chunk
    exact (foldl_scanByte_from maxCmd s chunk).symm
  rw [scanChunks, processTelnetData, List.foldl_flatten]
  exact congrArg (fun f => chunks.foldl f ⟨td, [], []⟩) hstep

/-! ### What is written -/

/-- One element of a telnet stream. -/
inductive Item
  | data (b : Byte)
  /-- A command of two bytes. -/
  | command (cmd : Byte)
  /-- WILL, WONT, DO or DONT. -/
  | negotiate (verb option : Byte)
  /-- A suboption; its first byte is the option. -/
  | suboption (option : List Byte)
  deriving Repr, DecidableEq

namespace Item

/-- What a sender that fits the receiver writes: commands below 250, the four verbs, and
suboptions that have a number below 255 and room in `telnet_cmd`. -/
def Legal (maxCmd : Nat) : Item → Prop
  | data _ => True
  | command cmd => cmd.toNat < 250
  | negotiate verb _ => 250 < verb.toNat ∧ verb ≠ TN_IAC
  | suboption option => option.head?.any (· ≠ TN_IAC) ∧ option.length + 2 ≤ maxCmd

instance (maxCmd : Nat) : DecidablePred (Legal maxCmd)
  | data _ => inferInstanceAs (Decidable True)
  | command _ => inferInstanceAs (Decidable (_ < _))
  | negotiate _ _ => inferInstanceAs (Decidable (_ ∧ _))
  | suboption _ => inferInstanceAs (Decidable (_ ∧ _))

/-- The bytes of an element. -/
def encode : Item → List Byte
  | data b => double TN_IAC [b]
  | command cmd => [TN_IAC, cmd]
  | negotiate verb option => [TN_IAC, verb, option]
  | suboption option => [TN_IAC, 250] ++ double TN_IAC option ++ [TN_IAC, 240]

/-- The data of an element. -/
def bytes : Item → List Byte
  | data b => [b]
  | _ => []

/-- The command of an element, as `telnet_cmd` holds it when it is handled. -/
def cmds : Item → List (List Byte)
  | data _ => []
  | command cmd => [[TN_IAC, cmd]]
  | negotiate verb option => [[TN_IAC, verb, option]]
  | suboption option => [[TN_IAC, 250] ++ option]

end Item

/-- The bytes of a stream. -/
def encodeItems (items : List Item) : List Byte := items.flatMap Item.encode

@[simp] theorem encode_nil : encodeItems [] = [] := rfl

@[simp] theorem encode_cons (item : Item) (items : List Item) :
    encodeItems (item :: items) = item.encode ++ encodeItems items := rfl

theorem encode_append (xs ys : List Item) :
    encodeItems (xs ++ ys) = encodeItems xs ++ encodeItems ys :=
  List.flatMap_append

/-- Data alone is written with its IACs doubled. -/
theorem encode_data (bs : List Byte) : encodeItems (bs.map .data) = double TN_IAC bs := by
  induction bs with
  | nil => rfl
  | cons b bs ih =>
    rw [List.map_cons, encode_cons, ih, Item.encode, Escape.double_cons, Escape.double_nil,
      List.append_nil, Escape.double_cons]

/-! ### Scanning what was written -/

/-- Nothing of a command has been seen. -/
def TelnetData.Clean (td : TelnetData) : Prop := td.telnetCmd = []

/-- What is scanned of one element between two commands. -/
def Scans (maxCmd : Nat) (bs data : List Byte) (cmds : List (List Byte)) : Prop :=
  ∀ td : TelnetData, td.Clean → ∃ td' : TelnetData, td'.Clean ∧
    processTelnetData maxCmd td bs = ⟨td', data, cmds⟩

theorem scans_nil (maxCmd : Nat) : Scans maxCmd [] [] [] := fun td h => ⟨td, h, rfl⟩

theorem Scans.append {maxCmd : Nat} {xs ys data data' : List Byte} {cmds cmds' : List (List Byte)}
    (h : Scans maxCmd xs data cmds) (h' : Scans maxCmd ys data' cmds') :
    Scans maxCmd (xs ++ ys) (data ++ data') (cmds ++ cmds') := by
  intro td htd
  obtain ⟨td₁, hclean₁, h₁⟩ := h td htd
  obtain ⟨td₂, hclean₂, h₂⟩ := h' td₁ hclean₁
  refine ⟨td₂, hclean₂, ?_⟩
  rw [processTelnetData_append, h₁]
  dsimp only
  rw [h₂]

/-! ### One byte -/

section

variable {maxCmd : Nat} {iac : Bool} {data : List Byte} {cmds : List (List Byte)} {x v b : Byte}

theorem scanByte_data (h : b ≠ TN_IAC) :
    scanByte maxCmd ⟨⟨[], iac⟩, data, cmds⟩ b = ⟨⟨[], iac⟩, data ++ [b], cmds⟩ := by
  rw [scanByte]
  dsimp only [List.length_nil]
  rw [if_neg (fun h => h rfl), if_neg h]

theorem scanByte_begin :
    scanByte maxCmd ⟨⟨[], iac⟩, data, cmds⟩ TN_IAC = ⟨⟨[TN_IAC], false⟩, data, cmds⟩ := rfl

theorem scanByte_doubled :
    scanByte maxCmd ⟨⟨[x], iac⟩, data, cmds⟩ TN_IAC = ⟨⟨[], iac⟩, data ++ [TN_IAC], cmds⟩ := rfl

theorem scanByte_command (h : b.toNat < 250) :
    scanByte maxCmd ⟨⟨[x], iac⟩, data, cmds⟩ b = ⟨⟨[], iac⟩, data, cmds ++ [[x, b]]⟩ := by
  have hne : ¬ ([x].length = 1 ∧ b = 255) := by
    rintro ⟨-, rfl⟩
    exact absurd h (by decide)
  rw [scanByte]
  dsimp only
  rw [if_pos (by simp), if_neg hne, if_pos List.length_singleton, if_pos h]
  rfl

theorem scanByte_verb (h : ¬ b.toNat < 250) (hne : b ≠ TN_IAC) :
    scanByte maxCmd ⟨⟨[x], iac⟩, data, cmds⟩ b = ⟨⟨[x, b], iac⟩, data, cmds⟩ := by
  rw [scanByte]
  dsimp only
  rw [if_pos (by simp), if_neg (fun h => hne h.2), if_pos List.length_singleton, if_neg h]
  rfl

theorem scanByte_negotiate (h : v ≠ 250) :
    scanByte maxCmd ⟨⟨[x, v], iac⟩, data, cmds⟩ b = ⟨⟨[], iac⟩, data, cmds ++ [[x, v, b]]⟩ := by
  rw [scanByte]
  dsimp only
  rw [if_pos (by simp), if_neg (fun h => absurd h.1 (by simp)), if_neg (by simp),
    if_pos (show [x, v].length = 2 from rfl), if_pos (show ([x, v] ++ [b]).getD 1 0 ≠ 250 from h)]
  rfl

theorem scanByte_suboption :
    scanByte maxCmd ⟨⟨[x, 250], iac⟩, data, cmds⟩ b = ⟨⟨[x, 250, b], iac⟩, data, cmds⟩ := rfl

variable {cmd : List Byte}

theorem scanByte_store (h : 3 ≤ cmd.length) (hle : cmd.length ≤ maxCmd) :
    scanByte maxCmd ⟨⟨cmd, false⟩, data, cmds⟩ b =
      ⟨⟨cmd ++ [b], decide (b = TN_IAC)⟩, data, cmds⟩ := by
  rw [scanByte]
  dsimp only
  rw [if_pos (by omega), if_neg (by omega), if_neg (by omega), if_neg (by omega),
    if_neg Bool.false_ne_true, if_neg (Nat.not_lt.2 hle)]

theorem scanByte_iac (h : 3 ≤ cmd.length) :
    scanByte maxCmd ⟨⟨cmd, true⟩, data, cmds⟩ TN_IAC = ⟨⟨cmd, false⟩, data, cmds⟩ := by
  rw [scanByte]
  dsimp only
  rw [if_pos (by omega), if_neg (by omega), if_neg (by omega), if_neg (by omega), if_pos rfl,
    if_neg (by decide), if_pos rfl]

theorem scanByte_end (h : 3 ≤ cmd.length) :
    scanByte maxCmd ⟨⟨cmd, true⟩, data, cmds⟩ 240 = ⟨⟨[], false⟩, data, cmds ++ [cmd.dropLast]⟩ := by
  rw [scanByte]
  dsimp only
  rw [if_pos (by omega), if_neg (by omega), if_neg (by omega), if_neg (by omega), if_pos rfl,
    if_pos rfl]

end

/-! ### Elements -/

/-- The bytes of a suboption, from the second on: each goes to the end of `telnet_cmd`. -/
theorem scan_option {maxCmd : Nat} {cmd option : List Byte} (hcmd : 3 ≤ cmd.length)
    (hmax : cmd.length + option.length ≤ maxCmd) (data : List Byte) (cmds : List (List Byte)) :
    (double TN_IAC option).foldl (scanByte maxCmd) ⟨⟨cmd, false⟩, data, cmds⟩ =
      ⟨⟨cmd ++ option, false⟩, data, cmds⟩ := by
  induction option generalizing cmd with
  | nil => rw [Escape.double_nil, List.foldl_nil, List.append_nil]
  | cons b option ih =>
    rw [List.length_cons] at hmax
    have hlen : (cmd ++ [b]).length = cmd.length + 1 := by simp
    have hpair : (Escape.pair TN_IAC b).foldl (scanByte maxCmd) ⟨⟨cmd, false⟩, data, cmds⟩ =
        ⟨⟨cmd ++ [b], false⟩, data, cmds⟩ := by
      by_cases hb : b = TN_IAC
      · -- The second half of the pair takes the mark off again.
        subst hb
        rw [Escape.pair_self, List.foldl_cons, List.foldl_cons, List.foldl_nil,
          scanByte_store hcmd (by omega), decide_eq_true rfl, scanByte_iac (by omega)]
      · rw [Escape.pair_of_ne _ hb, List.foldl_cons, List.foldl_nil,
          scanByte_store hcmd (by omega), decide_eq_false hb]
    rw [Escape.double_cons, List.foldl_append, hpair, ih (by omega) (by omega),
      List.append_assoc, List.singleton_append]

theorem scan_suboption {maxCmd : Nat} {option : List Byte} {iac : Bool} {data : List Byte}
    {cmds : List (List Byte)} (h : (Item.suboption option).Legal maxCmd) :
    (Item.suboption option).encode.foldl (scanByte maxCmd) ⟨⟨[], iac⟩, data, cmds⟩ =
      ⟨⟨[], false⟩, data, cmds ++ [[TN_IAC, 250] ++ option]⟩ := by
  obtain ⟨hhead, hlen⟩ := h
  cases option with
  | nil => exact absurd hhead (by simp)
  | cons b option =>
    have hb : b ≠ TN_IAC := by simpa using hhead
    rw [List.length_cons] at hlen
    -- IAC, SB and the option number; the rest of the suboption; IAC and SE.
    have hsplit : (Item.suboption (b :: option)).encode =
        [TN_IAC, 250, b] ++ (double TN_IAC option ++ [TN_IAC, 240]) := by
      rw [Item.encode, Escape.double_cons, Escape.pair_of_ne _ hb]
      rfl
    have hbegin : [TN_IAC, 250, b].foldl (scanByte maxCmd) ⟨⟨[], iac⟩, data, cmds⟩ =
        ⟨⟨[TN_IAC, 250, b], false⟩, data, cmds⟩ := rfl
    have hrest := @scan_option maxCmd [TN_IAC, 250, b] option (Nat.le_refl 3)
      (by simp only [List.length_cons, List.length_nil]; omega) data cmds
    have hlong : ([TN_IAC, 250, b] ++ option).length = option.length + 3 := by simp
    have hend : [TN_IAC, (240 : Byte)].foldl (scanByte maxCmd)
        ⟨⟨[TN_IAC, 250, b] ++ option, false⟩, data, cmds⟩ =
        ⟨⟨[], false⟩, data, cmds ++ [[TN_IAC, 250, b] ++ option]⟩ := by
      rw [List.foldl_cons, scanByte_store (by omega) (by omega), decide_eq_true rfl,
        List.foldl_cons, List.foldl_nil, scanByte_end (by rw [List.length_append]; omega),
        List.dropLast_concat]
    rw [hsplit, List.foldl_append, hbegin, List.foldl_append, hrest, hend]
    rfl

/-- **Every element is scanned as what it is.** -/
theorem Item.scans {maxCmd : Nat} {item : Item} (h : item.Legal maxCmd) :
    Scans maxCmd item.encode item.bytes item.cmds := by
  rintro ⟨cmd, iac⟩ hclean
  obtain rfl : cmd = [] := hclean
  cases item with
  | data b =>
    by_cases hb : b = TN_IAC
    · subst hb
      exact ⟨⟨[], false⟩, rfl, rfl⟩
    · refine ⟨⟨[], iac⟩, rfl, ?_⟩
      rw [encode, Escape.double_cons, Escape.pair_of_ne _ hb, Escape.double_nil,
        List.append_nil, processTelnetData, List.foldl_cons, scanByte_data hb]
      rfl
  | command c =>
    refine ⟨⟨[], false⟩, rfl, ?_⟩
    rw [encode, processTelnetData, List.foldl_cons, scanByte_begin, List.foldl_cons,
      scanByte_command h]
    rfl
  | negotiate verb option =>
    obtain ⟨hverb, hne⟩ := h
    have hsb : verb ≠ 250 := by
      rintro rfl
      exact absurd hverb (by decide)
    refine ⟨⟨[], false⟩, rfl, ?_⟩
    rw [encode, processTelnetData, List.foldl_cons, scanByte_begin, List.foldl_cons,
      scanByte_verb (by omega) hne, List.foldl_cons, scanByte_negotiate hsb]
    rfl
  | suboption option => exact ⟨⟨[], false⟩, rfl, scan_suboption h⟩

/-- A written stream is scanned as its elements. -/
theorem scans_encode {maxCmd : Nat} {items : List Item} (h : ∀ item ∈ items, item.Legal maxCmd) :
    Scans maxCmd (encodeItems items) (items.flatMap Item.bytes) (items.flatMap Item.cmds) := by
  induction items with
  | nil => exact scans_nil maxCmd
  | cons item items ih =>
    obtain ⟨hitem, hitems⟩ := List.forall_mem_cons.1 h
    exact (Item.scans hitem).append (ih hitems)

/-- **Scanning undoes writing**, however the bytes of the stream arrive: the data and the
commands of a stream of legal elements come out as they were put in. -/
theorem scanChunks_encode {maxCmd : Nat} {items : List Item}
    (h : ∀ item ∈ items, item.Legal maxCmd) {chunks : List (List Byte)}
    (hchunks : chunks.flatten = encodeItems items) {td : TelnetData} (htd : td.Clean) :
    (scanChunks maxCmd td chunks).data = items.flatMap Item.bytes ∧
      (scanChunks maxCmd td chunks).cmds = items.flatMap Item.cmds ∧
      (scanChunks maxCmd td chunks).td.Clean := by
  obtain ⟨td', hclean, hscan⟩ := scans_encode h td htd
  rw [scanChunks_eq, hchunks, hscan]
  exact ⟨rfl, rfl, hclean⟩

/-- Two bytes of data around WILL COM-PORT and a suboption with an IAC in it, in three reads. -/
theorem scanChunks_encode_reads :
    (scanChunks 31 ⟨[], false⟩ [[65, 255], [251, 44, 255, 250, 44, 107, 255],
      [255, 255, 240, 66]]).data = [65, 66] ∧
    (scanChunks 31 ⟨[], false⟩ [[65, 255], [251, 44, 255, 250, 44, 107, 255],
      [255, 255, 240, 66]]).cmds = [[255, 251, 44], [255, 250, 44, 107, 255]] := by
  have h := @scanChunks_encode 31
    [.data 65, .negotiate 251 44, .suboption [44, 107, 255], .data 66] (by decide)
    [[65, 255], [251, 44, 255, 250, 44, 107, 255], [255, 255, 240, 66]] (by decide)
    ⟨[], false⟩ rfl
  exact ⟨h.1, h.2.1⟩

end SerialServer.Dataxfer
