import SerialServer.Core.Escape
import SerialServer.Core.Hex

/-!
# SerialServer.Reporter.Expand

The strings of the configuration and what they stand for: `process_str`, and
`process_str_to_str`, which runs it twice.

`process_str` hands every character it puts out to a function. The first run counts the characters,
and the second stores them in memory that has been allocated for so many. A run hands the same
ones to any function (`processStr_eq_foldl`). The count has 32 bits, so what is stored fits as
long as there are fewer than 2^32 bytes of it, and no longer (`processStrToStr_exact_iff`). Where
`getnameinfo` fails, though, `\I` puts out what happens to be in memory, and that may differ
between the two runs.

Every text can be configured (`expand_double`), but not with escapes in digits: those put out
their character only at the end of the string (`octalEscape_ends`, `hexEscape_ends`).
-/

namespace SerialServer.Dataxfer

open Scan

/-- The fields of `struct tm` that are used. `localtime_r` makes none of them negative. -/
structure Tm where
  tmSec : Nat
  tmMin : Nat
  tmHour : Nat
  tmMday : Nat
  tmMon : Nat
  tmYear : Nat
  tmWday : Nat
  tmYday : Nat

/-- What `process_str` is called with, and what `serparm_to_str` says. -/
structure StrEnv where
  devname : List Byte
  portname : List Byte
  serparms : List Byte
  time : Tm
  tvSec : Nat
  tvUsec : Nat
  isfilename : Bool

/-! ### One escape -/

/-- `snprintf(d, size, …)` of a text. -/
def snprintf (size : Nat) (text : List Char) : List Byte := bytes (text.take (size - 1))

/-- `%d`. -/
def decimalText (n : Nat) : List Char := Nat.toDigits 10 n

/-- `%2.2d`, and `%6.6ld`. -/
def paddedText (k n : Nat) : List Char :=
  List.replicate (k - (decimalText n).length) '0' ++ decimalText n

def smonths : List String :=
  ["Jan", "Feb", "Mar", "Apr", "May", "Jun", "Jul", "Aug", "Sep", "Oct", "Nov", "Dec"]

def sdays : List String := ["Sun", "Mon", "Tue", "Wed", "Thu", "Fri", "Sat"]

/-- The part of a path behind its last `/`. -/
def lastPart (path : List Byte) : List Byte := (path.reverse.takeWhile (· ≠ 47)).reverse

/-- The hour on a clock with 12 hours. -/
def hour12 (hour : Nat) : Nat := if hour = 0 then 12 else if 12 < hour then hour - 12 else hour

/-- What the escape `\c` puts out, but for digits and `x`. `ip` is what is in the memory for the
address if `getnameinfo` fails; where it does not, the address is left out. -/
def escapeText (env : StrEnv) (ip : Option (List Byte)) (c : Byte) : List Byte :=
  let tm := env.time
  match Char.ofNat c.toNat with
  | 'a' => [7]
  | 'b' => [8]
  | 'f' => [12]
  | 'n' => [10]
  | 'r' => [13]
  | 't' => [9]
  | 'v' => [11]
  | 'd' => if env.isfilename then lastPart env.devname else env.devname
  | 'p' => env.portname
  | 's' => if env.isfilename then snprintf 10 (paddedText 2 tm.tmSec) else env.serparms
  | 'B' => env.serparms
  | 'Y' => snprintf 10 (decimalText (tm.tmYear + 1900))
  | 'y' => snprintf 10 (decimalText tm.tmYday)
  | 'M' => bytes (smonths.getD tm.tmMon "?").toList
  | 'm' => snprintf 10 (decimalText tm.tmMon)
  | 'A' => bytes (sdays.getD tm.tmWday "?").toList
  | 'D' => snprintf 10 (decimalText tm.tmMday)
  | 'H' => snprintf 10 (paddedText 2 tm.tmHour)
  | 'h' => snprintf 10 (paddedText 2 (hour12 tm.tmHour))
  | 'i' => snprintf 10 (paddedText 2 tm.tmMin)
  | 'S' => snprintf 10 (paddedText 2 tm.tmSec)
  | 'q' => if tm.tmHour < 12 then bytes ['a', 'm'] else bytes ['p', 'm']
  | 'P' => if tm.tmHour < 12 then bytes ['A', 'M'] else bytes ['P', 'M']
  | 'T' => snprintf 10 (paddedText 2 tm.tmHour ++ ':' :: paddedText 2 tm.tmMin ++
      ':' :: paddedText 2 tm.tmSec)
  | 'e' => snprintf 30 (decimalText env.tvSec)
  | 'U' => snprintf 10 (paddedText 6 env.tvUsec)
  | 'I' => ip.getD []
  -- The backslash and the quotes stand for themselves, and so does what is no escape.
  | _ => [c]

/-- `isdigit`. -/
def isDigit (c : Byte) : Bool := (Char.ofNat c.toNat).isDigit

/-- `'0'` to `'7'`. -/
def isOctal (c : Byte) : Bool := 48 ≤ c.toNat && c.toNat ≤ 55

/-- `from_hex_digit`. -/
def fromHexDigit (c : Byte) : Byte :=
  if 48 ≤ c.toNat ∧ c.toNat ≤ 57 then c - 48
  else if 65 ≤ c.toNat ∧ c.toNat ≤ 70 then c - 65 + 10
  else if 97 ≤ c.toNat ∧ c.toNat ≤ 102 then c - 97 + 10
  else 0

/-- Behind a backslash and a digit with the value `val`: what is put out, and what is left. The
value of three digits is computed, and not put out. -/
def octalEscape (val : Byte) : List Byte → List Byte × List Byte
  | [] => ([val], [])
  | c :: s =>
    if isDigit c then
      match s with
      | [] => ([val * 8 + c - 48], [])
      | c' :: s' => if isDigit c' then ([], s') else ([], s)
    else ([], c :: s)

/-- Behind `\x`: what is put out, and what is left. -/
def hexEscape : List Byte → List Byte × List Byte
  | [] => ([], [])
  | c :: s =>
    if isXDigit (Char.ofNat c.toNat) then
      match s with
      | [] => ([fromHexDigit c], [])
      | c' :: s' => if isDigit c' then ([], s') else ([], s)
    else ([], c :: s)

/-- Behind a backslash. -/
def escape (env : StrEnv) (ip : Option (List Byte)) : List Byte → List Byte × List Byte
  | [] => ([], [])
  | c :: s =>
    if isOctal c then octalEscape (c - 48) s
    else if c = 120 then hexEscape s
    else (escapeText env ip c, s)

theorem length_octalEscape (val : Byte) (s : List Byte) :
    (octalEscape val s).2.length ≤ s.length := by
  fun_cases octalEscape val s
  all_goals
    dsimp only [List.length_cons, List.length_nil]
    omega

theorem length_hexEscape (s : List Byte) : (hexEscape s).2.length ≤ s.length := by
  fun_cases hexEscape s
  all_goals
    dsimp only [List.length_cons, List.length_nil]
    omega

theorem length_escape (env : StrEnv) (ip : Option (List Byte)) (s : List Byte) :
    (escape env ip s).2.length ≤ s.length := by
  cases s with
  | nil => exact Nat.le_refl _
  | cons c s =>
    rw [escape]
    split
    · exact (length_octalEscape _ s).trans (Nat.le_succ _)
    · split
      · exact (length_hexEscape s).trans (Nat.le_succ _)
      · exact Nat.le_succ _

/-- A character in digits is put out only where the string ends. -/
theorem octalEscape_ends (val : Byte) (s : List Byte) :
    (octalEscape val s).1 = [] ∨ (octalEscape val s).2 = [] := by
  fun_cases octalEscape val s
  · exact .inr rfl
  · exact .inr rfl
  · exact .inl rfl
  · exact .inl rfl
  · exact .inl rfl

theorem hexEscape_ends (s : List Byte) : (hexEscape s).1 = [] ∨ (hexEscape s).2 = [] := by
  fun_cases hexEscape s
  · exact .inl rfl
  · exact .inr rfl
  · exact .inl rfl
  · exact .inl rfl
  · exact .inl rfl

/-! ### The string -/

/-- `process_str`. -/
def processStr {σ : Type} (env : StrEnv) (ip : Option (List Byte)) (op : σ → Byte → σ) (data : σ)
    (s : List Byte) : σ :=
  match s with
  | [] => data
  | c :: s =>
    if c = 92 then
      processStr env ip op ((escape env ip s).1.foldl op data) (escape env ip s).2
    else processStr env ip op (op data c) s
termination_by s.length
decreasing_by
  · exact Nat.lt_succ_of_le (length_escape env ip s)
  · exact Nat.lt_succ_self _

/-- What a string stands for. -/
def expand (env : StrEnv) (ip : Option (List Byte)) (s : List Byte) : List Byte :=
  processStr env ip (fun l c => l ++ [c]) [] s

variable {env : StrEnv} {ip : Option (List Byte)} {mem : Buf}

theorem exists_expansion (env : StrEnv) (ip : Option (List Byte)) (s : List Byte) :
    ∃ l : List Byte, ∀ {σ : Type} (op : σ → Byte → σ) (data : σ),
      processStr env ip op data s = l.foldl op data := by
  induction (), s using processStr.induct env ip (fun _ _ => ()) with
  | case1 =>
    refine ⟨[], fun op data => ?_⟩
    rw [processStr]
    rfl
  | case2 _ s ih =>
    obtain ⟨l, hl⟩ := ih
    refine ⟨(escape env ip s).1 ++ l, fun op data => ?_⟩
    rw [processStr, if_pos rfl, hl, List.foldl_append]
  | case3 _ c s hc ih =>
    obtain ⟨l, hl⟩ := ih
    refine ⟨c :: l, fun op data => ?_⟩
    rw [processStr, if_neg hc, hl]
    rfl

theorem foldl_snoc (l acc : List Byte) : l.foldl (fun l c => l ++ [c]) acc = acc ++ l := by
  induction l generalizing acc with
  | nil => exact (List.append_nil acc).symm
  | cons c l ih => rw [List.foldl_cons, ih, List.append_assoc]; rfl

/-- **The same characters are handed to any function.** -/
theorem processStr_eq_foldl {σ : Type} (op : σ → Byte → σ) (data : σ) (s : List Byte) :
    processStr env ip op data s = (expand env ip s).foldl op data := by
  obtain ⟨l, hl⟩ := exists_expansion env ip s
  have hexpand : expand env ip s = l := by
    rw [expand, hl, foldl_snoc]
    rfl
  rw [hl, hexpand]

theorem expand_nil : expand env ip [] = [] := by
  rw [expand, processStr]

theorem expand_cons (c : Byte) (s : List Byte) : expand env ip (c :: s) =
    if c = 92 then (escape env ip s).1 ++ expand env ip (escape env ip s).2
    else c :: expand env ip s := by
  rw [expand, processStr]
  split
  · rw [processStr_eq_foldl, foldl_snoc, foldl_snoc]
    rfl
  · rw [processStr_eq_foldl, foldl_snoc]
    rfl

/-- **Every text can be configured**: what it has to be written as is the text with its backslashes
doubled. -/
theorem expand_double (env : StrEnv) (ip : Option (List Byte)) (text : List Byte) :
    expand env ip (Escape.double 92 text) = text := by
  induction text with
  | nil => exact expand_nil
  | cons c text ih =>
    rw [Escape.double_cons]
    by_cases hc : c = 92
    · subst hc
      have hescape : escape env ip (92 :: Escape.double 92 text) =
          ([92], Escape.double 92 text) := rfl
      rw [Escape.pair_self, List.cons_append, List.cons_append, List.nil_append, expand_cons,
        if_pos rfl, hescape, ih]
      rfl
    · rw [Escape.pair_of_ne 92 hc, List.cons_append, List.nil_append, expand_cons, if_neg hc, ih]

/-- The string `\101BC`. -/
example : expand env ip [92, 49, 48, 49, 66, 67] = [66, 67] := by
  rw [expand_cons, if_pos rfl]
  change expand env ip [66, 67] = _
  rw [expand_cons, if_neg (by decide), expand_cons, if_neg (by decide), expand_nil]

/-! ### Two runs -/

/-- `count_op`. -/
def countOp (data : Word) (_ : Byte) : Word := data + 1

/-- `struct bufop_data`. -/
structure BufopData where
  pos : Word
  str : Buf
  /-- Not in the source: nothing has been stored from here on. -/
  reach : Nat

/-- `bufop.pos = 0`; `mem` is what is in the memory at first. -/
def BufopData.start (mem : Buf) : BufopData := ⟨0, mem, 0⟩

/-- `buffer_op`. -/
def bufferOp (data : BufopData) (c : Byte) : BufopData :=
  ⟨data.pos + 1, data.str.store data.pos.toNat [c], max data.reach (data.pos.toNat + 1)⟩

/-- What `process_str_to_str` leaves. -/
structure StrResult where
  /-- The memory that has been allocated. -/
  size : Nat
  len : Word
  str : Buf
  /-- Not in the source: nothing has been stored from here on. -/
  reach : Nat

/-- `process_str_to_str`, when there is memory for the string; `mem` is what is in it. Without
`lenrv` a NUL is put behind the string. -/
def processStrToStr (env : StrEnv) (ip ip' : Option (List Byte)) (lenrv : Bool) (mem : Buf)
    (s : List Byte) : StrResult :=
  let count := processStr env ip countOp 0 s
  let len := if lenrv then count else count + 1
  let bufop := processStr env ip' bufferOp (.start mem) s
  { size := if len = 0 then 1 else len.toNat
    len := len
    str := if lenrv then bufop.str else bufop.str.store bufop.pos.toNat [0]
    reach := if lenrv then bufop.reach else max bufop.reach (bufop.pos.toNat + 1) }

theorem foldl_countOp (l : List Byte) (n : Word) :
    l.foldl countOp n = n + BitVec.ofNat 32 l.length := by
  induction l generalizing n with
  | nil => exact (BitVec.add_zero n).symm
  | cons c l ih =>
    rw [List.foldl_cons, ih, countOp, List.length_cons, BitVec.ofNat_add, BitVec.add_assoc,
      BitVec.add_comm 1]
    rfl

/-- Until `pos` wraps around, the characters are stored one behind the other. -/
theorem foldl_bufferOp {l : List Byte} {data : BufopData} (hreach : data.reach = data.pos.toNat)
    (hfits : data.pos.toNat + l.length ≤ 4294967296) :
    (l.foldl bufferOp data).str = data.str.store data.pos.toNat l ∧
      (l.foldl bufferOp data).reach = data.pos.toNat + l.length := by
  induction l generalizing data with
  | nil =>
    refine ⟨funext fun i => ?_, hreach⟩
    simp [Buf.store]
  | cons c l ih =>
    rw [List.length_cons] at hfits ⊢
    cases l with
    | nil =>
      refine ⟨rfl, ?_⟩
      change max data.reach (data.pos.toNat + 1) = _
      rw [hreach, List.length_nil]
      omega
    | cons c' l =>
      rw [List.length_cons] at hfits
      have hpos : (data.pos + 1).toNat = data.pos.toNat + 1 := by
        rw [BitVec.toNat_add]
        exact Nat.mod_eq_of_lt (by change data.pos.toNat + 1 < 4294967296; omega)
      have hnext : (bufferOp data c).reach = (bufferOp data c).pos.toNat := by
        change max data.reach (data.pos.toNat + 1) = (data.pos + 1).toNat
        rw [hpos, hreach]
        omega
      obtain ⟨hstr, hend⟩ := ih hnext (by
        change (data.pos + 1).toNat + _ ≤ _
        rw [hpos, List.length_cons]
        omega)
      rw [List.foldl_cons, hstr, hend]
      change (data.str.store data.pos.toNat [c]).store (data.pos + 1).toNat _ = _ ∧
        (data.pos + 1).toNat + _ = _
      rw [hpos]
      refine ⟨Buf.store_store data.str data.pos.toNat [c] _, ?_⟩
      omega

theorem reach_le_foldl (l : List Byte) (data : BufopData) :
    data.reach ≤ (l.foldl bufferOp data).reach := by
  induction l generalizing data with
  | nil => exact Nat.le_refl _
  | cons c l ih => exact (Nat.le_max_left ..).trans (ih (bufferOp data c))

/-- With 2^32 characters all that `pos` can point to has been stored to. -/
theorem reach_of_long {l : List Byte} (mem : Buf) (hlong : 4294967296 ≤ l.length) :
    4294967296 ≤ (l.foldl bufferOp (.start mem)).reach := by
  have hlen : (l.take 4294967296).length = 4294967296 := List.length_take_of_le hlong
  have hzero : (BufopData.start mem).pos.toNat = 0 := rfl
  obtain ⟨-, hreach⟩ := @foldl_bufferOp (l.take 4294967296) (.start mem) rfl
    (by rw [hlen, hzero])
  rw [hlen, hzero] at hreach
  rw [← List.take_append_drop 4294967296 l, List.foldl_append]
  exact (Nat.le_of_eq hreach.symm).trans (reach_le_foldl ..)

/-- What is put behind the string. -/
def ending (lenrv : Bool) : List Byte := if lenrv then [] else [0]

/-- The NUL is counted and stored as a character is. -/
theorem processStrToStr_eq (env : StrEnv) (ip ip' : Option (List Byte)) (lenrv : Bool) (mem : Buf)
    (s : List Byte) :
    let len := BitVec.ofNat 32 (expand env ip s ++ ending lenrv).length
    let bufop := (expand env ip' s ++ ending lenrv).foldl bufferOp (.start mem)
    processStrToStr env ip ip' lenrv mem s =
      { size := if len = 0 then 1 else len.toNat
        len := len
        str := bufop.str
        reach := bufop.reach } := by
  have hcount : processStr env ip countOp 0 s = BitVec.ofNat 32 (expand env ip s).length := by
    rw [processStr_eq_foldl, foldl_countOp]
    exact BitVec.zero_add _
  intro len bufop
  rw [processStrToStr, hcount, processStr_eq_foldl]
  cases lenrv with
  | true =>
    have hlen : len = BitVec.ofNat 32 (expand env ip s).length :=
      congrArg (fun l : List Byte => BitVec.ofNat 32 l.length) (List.append_nil _)
    have hbufop : bufop = (expand env ip' s).foldl bufferOp (.start mem) :=
      congrArg (fun l : List Byte => l.foldl bufferOp (.start mem)) (List.append_nil _)
    rw [hlen, hbufop]
    rfl
  | false =>
    have hlen : len = BitVec.ofNat 32 (expand env ip s).length + 1 :=
      (congrArg (BitVec.ofNat 32) List.length_append).trans (BitVec.ofNat_add ..)
    have hbufop : bufop = bufferOp ((expand env ip' s).foldl bufferOp (.start mem)) 0 :=
      List.foldl_append
    rw [hlen, hbufop]
    rfl

/-- A string that can be counted. -/
theorem processStrToStr_short {lenrv : Bool} {s : List Byte} (mem : Buf)
    (hshort : (expand env ip s ++ ending lenrv).length < 4294967296) :
    let r := processStrToStr env ip ip lenrv mem s
    let text := expand env ip s ++ ending lenrv
    r.str = mem.store 0 text ∧ r.reach = text.length ∧ r.len.toNat = text.length ∧
      r.reach ≤ r.size := by
  intro r text
  have hr : r = _ := processStrToStr_eq env ip ip lenrv mem s
  have hzero : (BufopData.start mem).pos.toNat = 0 := rfl
  obtain ⟨hstr, hreach⟩ := @foldl_bufferOp text (.start mem) rfl
    (by rw [hzero, Nat.zero_add]; exact Nat.le_of_lt hshort)
  rw [hzero, Nat.zero_add] at hreach
  have hlen : (BitVec.ofNat 32 text.length).toNat = text.length :=
    (BitVec.toNat_ofNat ..).trans (Nat.mod_eq_of_lt hshort)
  rw [hr]
  refine ⟨hstr, hreach, hlen, ?_⟩
  dsimp only
  rw [hreach]
  split
  · next hnone =>
    rw [hnone] at hlen
    change 0 = text.length at hlen
    omega
  · exact Nat.le_of_eq hlen.symm

/-- One that cannot: the memory is too small. -/
theorem processStrToStr_long {lenrv : Bool} {s : List Byte} (mem : Buf)
    (hlong : 4294967296 ≤ (expand env ip s ++ ending lenrv).length) :
    (processStrToStr env ip ip lenrv mem s).size <
      (processStrToStr env ip ip lenrv mem s).reach := by
  have hfar := reach_of_long mem hlong
  rw [processStrToStr_eq]
  dsimp only
  split
  · omega
  · exact (BitVec.isLt _).trans_le hfar

/-- **What `process_str_to_str` returns** if both runs put out the same, as `process_str` does for
any function it is given: the memory is not left if and only if there are fewer than 2^32 bytes to
be stored, and just then it returns what the string stands for, with its length. -/
theorem processStrToStr_exact_iff (env : StrEnv) (ip : Option (List Byte)) (lenrv : Bool)
    (mem : Buf) (s : List Byte) :
    let r := processStrToStr env ip ip lenrv mem s
    let text := expand env ip s ++ ending lenrv
    (∀ {σ : Type} (op : σ → Byte → σ) (data : σ),
        processStr env ip op data s = (expand env ip s).foldl op data) ∧
      (r.reach ≤ r.size ↔ text.length < 4294967296) ∧
      (r.str = mem.store 0 text ∧ r.reach = text.length ∧ r.len.toNat = text.length ∧
        r.reach ≤ r.size ↔ text.length < 4294967296) := by
  intro r text
  have hfits : r.reach ≤ r.size → text.length < 4294967296 := by
    intro hle
    by_contra hlong
    exact absurd (processStrToStr_long mem (Nat.le_of_not_lt hlong)) (Nat.not_lt.2 hle)
  have hshort := @processStrToStr_short env ip lenrv s mem
  exact ⟨fun op data => processStr_eq_foldl op data s, ⟨hfits, fun h => (hshort h).2.2.2⟩,
    ⟨fun h => hfits h.2.2.2, hshort⟩⟩

/-- The string `\I`, when `getnameinfo` has failed and the second run finds more in memory than
the first. -/
example :
    let r := processStrToStr env (some []) (some [49, 46]) true mem [92, 73]
    r.size = 1 ∧ r.reach = 2 := by
  have hexpand : ∀ l, expand env (some l) [92, 73] = l := by
    intro l
    rw [expand_cons, if_pos rfl]
    change l ++ expand env (some l) [] = l
    rw [expand_nil, List.append_nil]
  intro r
  have hr : r = _ := processStrToStr_eq env (some []) (some [49, 46]) true mem [92, 73]
  rw [hr, hexpand, hexpand]
  exact ⟨rfl, rfl⟩

/-- `process_str_to_buf`, of a string that may not be there: what is in the buffer. -/
def processStrToBuf (env : StrEnv) (ip ip' : Option (List Byte)) (mem : Buf)
    (str : Option (List Byte)) : Option (List Byte) :=
  str.map fun s =>
    let r := processStrToStr { env with isfilename := false } ip ip' true mem s
    r.str.slice 0 r.len.toNat

/-- The banner and the two other strings of a connection are what the configured ones stand for, as
long as these can be counted. -/
theorem processStrToBuf_eq {str : Option (List Byte)}
    (h : ∀ s ∈ str, (expand { env with isfilename := false } ip s).length < 4294967296) :
    processStrToBuf env ip ip mem str = str.map (expand { env with isfilename := false } ip) := by
  cases str with
  | none => rfl
  | some s =>
    have hending : ∀ l, l ++ ending true = l := List.append_nil
    have hshort := @processStrToStr_short { env with isfilename := false } ip true s mem
    rw [hending] at hshort
    obtain ⟨hstr, -, hlen, -⟩ := hshort (h s rfl)
    refine congrArg some ?_
    dsimp only
    rw [hstr, hlen]
    exact Buf.slice_store mem 0 (expand { env with isfilename := false } ip s)

end SerialServer.Dataxfer
