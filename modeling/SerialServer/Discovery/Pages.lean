import SerialServer.Discovery.Form
import SerialServer.Discovery.RealName

/-!
# SerialServer.Discovery.Pages

The pages of the embedded web server (`begin_request_handler`).

A page is made by `sprintf` and `strcat` in two buffers of 2048 bytes, from fixed text, what is
known of the device, the listing of the ports, the URI and the fields of a form; `mcChangeip`
makes its datagram in one of 1024. None of them looks at a length. The two fields of a form are
parts of one body (`length_inputs_le`), and the names of ports that stay in their slots are
short (`index_fits`, `changename_link_fits`), so ordinary requests are within bounds. Three kinds
are not (`pagesFit_iff`): the page that has its table index and a text from the URI, the list of
ports, and the datagram of a form with one long field.
-/

namespace SerialServer.Main37

open CString Scan Mongoose

/-! ### Texts -/

/-- The Chinese characters of the pages, in the encoding of the source. -/
def gbkTable : List (Char × Nat × Nat) :=
  [('网', 0xcd, 0xf8), ('络', 0xc2, 0xe7), ('串', 0xb4, 0xae), ('口', 0xbf, 0xda),
   ('服', 0xb7, 0xfe), ('务', 0xce, 0xf1), ('器', 0xc6, 0xf7), ('地', 0xb5, 0xd8),
   ('址', 0xd6, 0xb7), ('修', 0xd0, 0xde), ('改', 0xb8, 0xc4), ('本', 0xb1, 0xbe),
   ('机', 0xbb, 0xfa), ('设', 0xc9, 0xe8), ('备', 0xb1, 0xb8), ('名', 0xc3, 0xfb),
   ('未', 0xce, 0xb4), ('安', 0xb0, 0xb2), ('装', 0xd7, 0xb0), ('驱', 0xc7, 0xfd),
   ('动', 0xb6, 0xaf), ('程', 0xb3, 0xcc), ('序', 0xd0, 0xf2), ('新', 0xd0, 0xc2),
   ('子', 0xd7, 0xd3), ('掩', 0xd1, 0xda), ('码', 0xc2, 0xeb), ('提', 0xcc, 0xe1),
   ('交', 0xbd, 0xbb), ('旧', 0xbe, 0xc9), ('称', 0xb3, 0xc6), ('原', 0xd4, 0xad)]

/-- The bytes of a character. -/
def gbkChar (c : Char) : List Char :=
  if c.toNat < 128 then [c]
  else match gbkTable.find? fun e => e.1 = c with
    | some (_, hi, lo) => [Char.ofNat hi, Char.ofNat lo]
    | none => [c]

/-- The bytes of a text of the source. -/
def gbk (s : String) : List Char := s.toList.flatMap gbkChar

def changeipForm : List Char :=
  gbk "<html><body><h3>修改串口服务器ip地址</h3>" ++
    gbk "<form method=\"POST\" action=\"/changeip_done\">"

def changeipForm1 : List Char :=
  gbk "新ip地址: <input type=\"text\" name=\"input_1\" /> <br/>" ++
    gbk "子网掩码: <input type=\"text\" name=\"input_2\" /> <br/>" ++
    gbk "<input type=\"submit\" value=\"提交\" />" ++ gbk "</form></body></html>"

def changenameForm : List Char :=
  gbk "<html><body><h3>修改串口设备名称</h3>" ++
    gbk "<form method=\"POST\" action=\"/changename_done\">" ++ gbk "旧名称: "

def changenameForm1 : List Char :=
  gbk "新名称: <input type=\"text\" name=\"input_2\" /> <br/>" ++
    gbk "<input type=\"submit\" value=\"提交\" />" ++ gbk "</form></body></html>"

def htmlHeader : List Char := gbk "<html><body>"

def htmlEnd : List Char := gbk "</body></html>"

/-! ### The program -/

/-- What a `char` array of `n` bytes holds: a string, with its NUL. -/
abbrev Held (n : Nat) : Type := { s : List Char // s.length < n }

/-- The variables the pages are made from. -/
structure Site where
  serverip : Held 100
  servermac : Held 100
  servername : Held 100
  hhmmssFound : Held 30
  gStatus : Held 500
  gRcv : Held 1000
  gErr : Held 200
  gNum : Word
  portConnect8 : Word
  gNameCNCA : Int → Char

/-- A request, and what the handler comes across when it is called. -/
structure Request where
  uri : List Char
  conn : Connection
  /-- What lies where `post_data` will be, and behind it. -/
  postData : Nat → Char
  /-- What `time` gives. -/
  t : Word
  /-- `out.txt`, if it is there. -/
  out : Option (List Char)
  /-- What the `n` of `getRealName` is left with. -/
  n : Int

/-- The buffers that are formatted into. -/
inductive PageBuffer
  | buf
  | buf1
  | sendbuf
  deriving Repr, DecidableEq

/-- Their sizes. -/
def PageBuffer.size : PageBuffer → Nat
  | .buf => 2048
  | .buf1 => 2048
  | .sendbuf => 1024

/-- What a call of the handler comes to: the strings it formats, in order, what it has read of
`gNameCNCA` at an index from the URI, with the offset, the table behind it, and whether the
request is marked as processed. -/
structure Page where
  formatted : List (PageBuffer × List Char)
  indexed : Option (Int × List Char)
  gNameCNCA : Int → Char
  processed : Bool

/-- `atoi`. -/
def atoi (s : List Char) : Int := ((integer s).map Prod.fst).getD 0

/-- Where the name of a URI stands in the table. The product is an `int`. -/
def nameOffset (s : List Char) : Int := (BitVec.ofInt 32 (20 * atoi s)).toInt

/-- A name in the table, as far as it can matter: 2048 characters do not fit anywhere. -/
def nameAt (mem : Int → Char) (p : Int) : List Char := stringAt mem p 2048

/-- The fields of a form. -/
def inputs (req : Request) : List Char × List Char :=
  let (postDataLen, body) := mgRead req.conn 1024
  let postData : Nat → Char := fun i => body.getD i (req.postData i)
  (cstr (mgGetVar postData postDataLen "input_1".toList 1024).1,
    cstr (mgGetVar postData postDataLen "input_2".toList 1024).1)

/-- `mcChangeip`. -/
def mcChangeip (newip pmask : List Char) : List (PageBuffer × List Char) :=
  [(.sendbuf, gbk "changeip " ++ newip ++ gbk " " ++ pmask)]

/-- The parts of a page, each formatted in `buf1` and then put behind what is in `buf`. -/
def strcats (buf : List Char) : List (List Char) → List (PageBuffer × List Char)
  | [] => []
  | buf1 :: parts => (.buf1, buf1) :: (.buf, buf ++ buf1) :: strcats (buf ++ buf1) parts

/-- The page that asks for a new name. -/
def changename (site : Site) (s : List Char) : Page :=
  let buf1 := gbk "<input type=\"hidden\" name=\"input_1\" value=\"" ++ s ++ gbk "\" /><br />"
  let name := nameAt site.gNameCNCA (nameOffset s)
  let buf := changenameForm ++ name ++ gbk "<br />" ++ buf1 ++ changenameForm1
  ⟨[(.buf1, buf1), (.buf, buf)], some (nameOffset s, name), site.gNameCNCA, true⟩

/-- The page that asks for a new address. -/
def changeip (site : Site) : List (PageBuffer × List Char) :=
  let buf1 := gbk "原ip地址: " ++ site.serverip ++ gbk "<br />"
  [(.buf1, buf1), (.buf, changeipForm ++ buf1 ++ gbk "<br />" ++ changeipForm1)]

/-- The first lines of the index page. -/
def serverRows (site : Site) (t : List Char) : List (List Char) :=
  if 0 < site.gNum.toInt then
    [gbk "<table border=\"1\"><caption>网络串口服务器</caption>",
      gbk "<tr align=\"center\"><td>IP地址:</td><td>" ++ site.serverip ++
        gbk " <a href=\"/changeip?t=" ++ t ++ gbk "\">修改</a></td></tr>",
      gbk "<tr align=\"center\"><td>MAC地址:</td><td>" ++ site.servermac ++
        gbk "</td></tr></table>"]
  else []

/-- The line of port `i`. -/
def nameRow (name t : List Char) (i : Nat) : List Char :=
  gbk "<tr align=\"center\"><td>" ++ intText (i + 1) ++ gbk "</td><td>" ++ name ++
    gbk " <a href=\"/changename" ++ intText i ++ gbk "?t=" ++ t ++
    gbk "\">改名</a></td><td>网络串口" ++ intText (i + 1) ++ gbk "</td></tr>"

/-- The index page. -/
def index (site : Site) (req : Request) : Page :=
  let t := intText req.t.toInt
  let real := getRealName req.n req.out
  let formatted :=
    if real.num = 8 then
      strcats [] (serverRows site t ++
        gbk "<table border=\"1\"><tr><td></td><td>本机串口设备名</td><td>网络串口名</td></tr>" ::
        (List.range real.num).map (fun i : Nat =>
          nameRow (nameAt real.pCNCA (20 * real.pn i)) t i) ++
        [gbk "</table>"])
    else
      strcats [] (serverRows site t) ++
        [(.buf, gbk "<table><tr><td>未安装驱动程序</td></tr></table>")]
  ⟨formatted, none, real.pCNCA, true⟩

/-- What is found about the server, as the test pages say it. -/
def serverText (site : Site) : List Char :=
  gbk "ip: " ++ site.serverip ++ gbk ", mac: " ++ site.servermac ++ gbk ", hostname:" ++
    site.servername ++ gbk " " ++ site.hhmmssFound ++ gbk ", num: " ++ intText site.gNum.toInt

/-- The branches of the handler. -/
inductive Route
  | handlePostRequest
  | changenameDone
  | changename
  | changeipDone
  | changeip
  | handlePostRequestRun
  | indexHtml
  | index
  | runsilent
  | statustest
  | testmc
  | test001
  | testsilent
  | testkill
  | urlsearchserver
  | other
  deriving Repr, DecidableEq

/-- The branch of a URI. -/
def route (uri : List Char) : Route :=
  if uri = "/handle_post_request".toList then .handlePostRequest
  else if uri = "/changename_done".toList then .changenameDone
  else if uri.take 11 = "/changename".toList then .changename
  else if uri = "/changeip_done".toList then .changeipDone
  else if uri = "/changeip".toList then .changeip
  else if uri = "/handle_post_request_run".toList then .handlePostRequestRun
  else if uri = "/index.html".toList then .indexHtml
  else if uri = "/".toList ∨ uri = "/index".toList then .index
  else if uri = "/runsilent.html".toList then .runsilent
  else if uri = "/statustest.html".toList then .statustest
  else if uri = "/testmc.html".toList then .testmc
  else if uri = "/test001.html".toList then .test001
  else if uri = "/testsilent.html".toList then .testsilent
  else if uri = "/testkill.html".toList then .testkill
  else if uri = "/urlsearchserver.html".toList then .urlsearchserver
  else .other

/-- `begin_request_handler`. -/
def beginRequestHandler (site : Site) (req : Request) : Page :=
  let uri := cstr req.uri
  let page (formatted : List (PageBuffer × List Char)) : Page :=
    ⟨formatted, none, site.gNameCNCA, true⟩
  match route uri with
  | .changenameDone =>
      let (input1, input2) := inputs req
      page [(.buf1, gbk "change CNCA" ++ input1 ++ gbk " PortName=COM#,RealPortName=" ++ input2)]
  | .changename => changename site (uri.drop 11)
  | .changeipDone => page (mcChangeip (inputs req).1 (inputs req).2)
  | .changeip => page (changeip site)
  | .index => index site req
  | .statustest =>
      page [(.buf1, htmlHeader ++ gbk " status: " ++ site.gStatus ++ gbk "  == num:" ++
        intText site.gNum.toInt ++ gbk " " ++ htmlEnd)]
  | .testmc =>
      page [(.buf, htmlHeader ++ gbk " ret str: " ++ site.gRcv ++ gbk " " ++ site.gErr ++
        gbk " num:" ++ intText site.gNum.toInt ++ gbk " " ++ htmlEnd)]
  | .test001 => page [(.buf, serverText site)]
  | .testsilent =>
      page [(.buf, serverText site ++ gbk ", port_connect_8:" ++
        intText site.portConnect8.toInt)]
  | .testkill => page [(.buf, serverText site)]
  | .urlsearchserver => page [(.buf, gbk "searching")]
  -- These format nothing themselves.
  | .handlePostRequest => page []
  | .handlePostRequestRun => page []
  | .indexHtml => page []
  | .runsilent => page []
  | .other => ⟨[], none, site.gNameCNCA, false⟩

/-! ### Bounds -/

/-- A string at one of the 75 slots of the table that ends in its 1500 bytes. -/
def InSlot (r : Int × List Char) : Prop :=
  ∃ k : Nat, k < 75 ∧ r.1 = 20 * k ∧ r.1 + r.2.length < 1500

/-- Every string fits its buffer, and what is read at an index from the URI is in the table. -/
structure Page.Fits (p : Page) : Prop where
  formatted : InBounds PageBuffer.size p.formatted
  indexed : ∀ r ∈ p.indexed, InSlot r

/-- A URI that asks for a slot, with a name that ends in the table and a text that leaves room
for both of them. The index is taken as it wraps around. -/
def NameFits (site : Site) (s : List Char) : Prop :=
  ∃ k : Nat, k < 75 ∧ atoi s % 2 ^ 30 = k ∧
    20 * k + (nameAt site.gNameCNCA (20 * k)).length < 1500 ∧
    s.length + (nameAt site.gNameCNCA (20 * k)).length < 1791

/-- The length of the first lines of the index page. -/
def serverLength (site : Site) (t : List Char) : Nat :=
  if 0 < site.gNum.toInt then
    190 + site.serverip.1.length + site.servermac.1.length + t.length
  else 0

/-- The length of the names on the index page. -/
def namesLength (pCNCA : Int → Char) : Nat :=
  ((List.range 8).flatMap fun i : Nat => nameAt pCNCA (20 * i)).length

/-- The names leave room for what is around them, if they are shown. -/
def IndexFits (site : Site) (req : Request) : Prop :=
  let t := intText req.t.toInt
  let real := getRealName req.n req.out
  real.num = 8 →
    serverLength site t + 8 * t.length + namesLength real.pCNCA + 854 < 2048

/-- What a request has to be for its page to fit. -/
def Request.Fits (site : Site) (req : Request) : Prop :=
  match route (cstr req.uri) with
  | .changename => NameFits site ((cstr req.uri).drop 11)
  | .changeipDone => (inputs req).1.length + (inputs req).2.length < 1014
  | .index => IndexFits site req
  | _ => True

/-! ### Lengths -/

/-- The length of a text of the source. -/
theorem length_gbk {cs : List Char} {n : Nat} (h : (cs.flatMap gbkChar).length = n) :
    (gbk (String.ofList cs)).length = n := by
  rw [gbk, String.toList_ofList, h]

theorem length_intText_word (w : Word) : (intText w.toInt).length ≤ 11 := by
  refine length_intText_le ⟨?_, ?_⟩
  · exact BitVec.le_toInt w
  · exact Int.le_of_lt_add_one BitVec.toInt_lt

theorem length_changenameForm : changenameForm.length = 91 := by
  have h₁ : (gbk "<html><body><h3>修改串口设备名称</h3>").length = 37 := length_gbk (by decide)
  have h₂ : (gbk "<form method=\"POST\" action=\"/changename_done\">").length = 46 :=
    length_gbk (by decide)
  have h₃ : (gbk "旧名称: ").length = 8 := length_gbk (by decide)
  rw [changenameForm, List.length_append, List.length_append, h₁, h₂, h₃]

theorem length_changenameForm1 : changenameForm1.length = 107 := by
  have h₁ : (gbk "新名称: <input type=\"text\" name=\"input_2\" /> <br/>").length = 50 :=
    length_gbk (by decide)
  have h₂ : (gbk "<input type=\"submit\" value=\"提交\" />").length = 36 :=
    length_gbk (by decide)
  have h₃ : (gbk "</form></body></html>").length = 21 := length_gbk (by decide)
  rw [changenameForm1, List.length_append, List.length_append, h₁, h₂, h₃]

theorem length_changeipForm : changeipForm.length = 85 := by
  have h₁ : (gbk "<html><body><h3>修改串口服务器ip地址</h3>").length = 41 := length_gbk (by decide)
  have h₂ : (gbk "<form method=\"POST\" action=\"/changeip_done\">").length = 44 :=
    length_gbk (by decide)
  rw [changeipForm, List.length_append, h₁, h₂]

theorem length_changeipForm1 : changeipForm1.length = 161 := by
  have h₁ : (gbk "新ip地址: <input type=\"text\" name=\"input_1\" /> <br/>").length = 52 :=
    length_gbk (by decide)
  have h₂ : (gbk "子网掩码: <input type=\"text\" name=\"input_2\" /> <br/>").length = 52 :=
    length_gbk (by decide)
  have h₃ : (gbk "<input type=\"submit\" value=\"提交\" />").length = 36 :=
    length_gbk (by decide)
  have h₄ : (gbk "</form></body></html>").length = 21 := length_gbk (by decide)
  rw [changeipForm1, List.length_append, List.length_append, List.length_append, h₁, h₂, h₃, h₄]

/-- The length of a line of the index page. -/
theorem length_nameRow (name t : List Char) {i : Nat} (hi : i < 8) :
    (nameRow name t i).length = 96 + t.length + name.length := by
  have h₁ : (gbk "<tr align=\"center\"><td>").length = 23 := length_gbk (by decide)
  have h₂ : (gbk "</td><td>").length = 9 := length_gbk (by decide)
  have h₃ : (gbk " <a href=\"/changename").length = 21 := length_gbk (by decide)
  have h₄ : (gbk "?t=").length = 3 := length_gbk (by decide)
  have h₅ : (gbk "\">改名</a></td><td>网络串口").length = 27 := length_gbk (by decide)
  have h₆ : (gbk "</td></tr>").length = 10 := length_gbk (by decide)
  have hi₀ : (intText i).length = 1 := by
    revert i
    decide
  have hi₁ : (intText (i + 1)).length = 1 := by
    revert i
    decide
  rw [nameRow]
  simp only [List.length_append, h₁, h₂, h₃, h₄, h₅, h₆, hi₀, hi₁]
  omega

/-- The length of some of them. -/
theorem length_nameRows (name : Nat → List Char) (t : List Char) {is : List Nat}
    (his : ∀ i ∈ is, i < 8) :
    ((is.map fun i => nameRow (name i) t i).flatten).length =
      is.length * (96 + t.length) + (is.flatMap name).length := by
  induction is with
  | nil => simp
  | cons i is ih =>
    rw [List.forall_mem_cons] at his
    rw [List.map_cons, List.flatten_cons, List.length_append, length_nameRow _ _ his.1,
      ih his.2, List.flatMap_cons, List.length_append, List.length_cons, Nat.add_mul]
    omega

theorem length_serverRows (site : Site) (t : List Char) :
    (serverRows site t).flatten.length = serverLength site t := by
  have h₁ : (gbk "<table border=\"1\"><caption>网络串口服务器</caption>").length = 51 :=
    length_gbk (by decide)
  have h₂ : (gbk "<tr align=\"center\"><td>IP地址:</td><td>").length = 39 :=
    length_gbk (by decide)
  have h₃ : (gbk " <a href=\"/changeip?t=").length = 22 := length_gbk (by decide)
  have h₄ : (gbk "\">修改</a></td></tr>").length = 20 := length_gbk (by decide)
  have h₅ : (gbk "<tr align=\"center\"><td>MAC地址:</td><td>").length = 40 :=
    length_gbk (by decide)
  have h₆ : (gbk "</td></tr></table>").length = 18 := length_gbk (by decide)
  rw [serverRows, serverLength]
  split
  · simp only [List.flatten_cons, List.flatten_nil, List.append_nil, List.length_append, h₁, h₂,
      h₃, h₄, h₅, h₆]
    omega
  · rfl

theorem serverLength_le (site : Site) (t : List Char) : serverLength site t ≤ 388 + t.length := by
  have hip := site.serverip.2
  have hmac := site.servermac.2
  rw [serverLength]
  split <;> omega

theorem length_serverText_lt (site : Site) : (serverText site).length < 400 := by
  have h₁ : (gbk "ip: ").length = 4 := length_gbk (by decide)
  have h₂ : (gbk ", mac: ").length = 7 := length_gbk (by decide)
  have h₃ : (gbk ", hostname:").length = 11 := length_gbk (by decide)
  have h₄ : (gbk " ").length = 1 := length_gbk (by decide)
  have h₅ : (gbk ", num: ").length = 7 := length_gbk (by decide)
  have hip := site.serverip.2
  have hmac := site.servermac.2
  have hname := site.servername.2
  have hfound := site.hhmmssFound.2
  have hnum := length_intText_word site.gNum
  rw [serverText]
  simp only [List.length_append, h₁, h₂, h₃, h₄, h₅]
  omega

/-! ### Forms -/

/-- What a field is made from. -/
theorem field_spec (data : Nat → Char) (n : Int) (name : List Char) :
    cstr (mgGetVar data n name 1024).1 = [] ∨
      ∃ p k, Variable data n name p k ∧ (cstr (mgGetVar data n name 1024).1).length ≤ k := by
  have hcstr := (List.takeWhile_prefix (l := (mgGetVar data n name 1024).1)
    fun c : Char => decide (c.toNat ≠ 0)).length_le
  rcases mgGetVar_spec data n name 1024 with hnil | ⟨p, k, hvar, hlen⟩
  · rw [hnil]
    exact .inl rfl
  · exact .inr ⟨p, k, hvar, Nat.le_trans hcstr hlen⟩

/-- **The two fields of a form** are parts of one body of 1024 bytes, with their names in front
of them: one of them can have 1016 characters, and both together 1007. -/
theorem length_inputs_le (req : Request) :
    (inputs req).1.length + (inputs req).2.length ≤ 1016 ∧
      ((inputs req).1 ≠ [] → (inputs req).2 ≠ [] →
        (inputs req).1.length + (inputs req).2.length ≤ 1007) := by
  have hn := mgRead_le req.conn 1024
  unfold inputs
  dsimp only
  generalize (mgRead req.conn 1024).1 = n at hn ⊢
  generalize (fun i => (mgRead req.conn 1024).2.getD i (req.postData i)) = data
  have hname : ∀ c ∈ "input_1".toList, c.toLower ≠ '&' := forall_mem_of_all (by decide)
  have hname' : ∀ c ∈ "input_2".toList, c.toLower ≠ '&' := forall_mem_of_all (by decide)
  have hlen : "input_1".toList.length = 7 := by decide
  have hlen' : "input_2".toList.length = 7 := by decide
  rcases field_spec data n "input_1".toList with hnil | ⟨p, k, hvar, hk⟩ <;>
    rcases field_spec data n "input_2".toList with hnil' | ⟨p', k', hvar', hk'⟩
  · rw [hnil, hnil']
    exact ⟨Nat.zero_le _, fun h => absurd rfl h⟩
  · have hle := hvar'.le
    rw [hnil]
    refine ⟨?_, fun h => absurd rfl h⟩
    rw [List.length_nil]
    omega
  · have hle := hvar.le
    rw [hnil']
    refine ⟨?_, fun _ h => absurd rfl h⟩
    rw [List.length_nil]
    omega
  · have hle := hvar.le
    have hle' := hvar'.le
    have hsum : k + k' ≤ 1007 := by
      have hne : p ≠ p' := hvar.ne (i := 6) hvar' rfl rfl (by decide)
      rcases Nat.lt_or_gt_of_ne hne with hlt | hgt
      · have hbehind := hvar.lt hvar' hname hlt
        omega
      · have hbehind := hvar'.lt hvar hname' hgt
        omega
    exact ⟨by omega, fun _ _ => by omega⟩

/-! ### Pages -/

/-- What `strcat` has put together fits when all of it does. -/
theorem inBounds_strcats {buf : List Char} (hbuf : buf.length < 2048) (parts : List (List Char)) :
    InBounds PageBuffer.size (strcats buf parts) ↔
      buf.length + parts.flatten.length < 2048 := by
  induction parts generalizing buf with
  | nil => exact iff_of_true inBounds_nil hbuf
  | cons buf1 parts ih =>
    have hbuf' : (buf ++ buf1).length = buf.length + buf1.length := List.length_append
    have hall : (buf1 :: parts).flatten.length = buf1.length + parts.flatten.length := by
      rw [List.flatten_cons, List.length_append]
    rw [strcats, inBounds_cons, inBounds_cons, hall]
    dsimp only [PageBuffer.size]
    constructor
    · rintro ⟨-, hfits, hrest⟩
      have hsum := (ih hfits).1 hrest
      omega
    · intro h
      have hfits : (buf ++ buf1).length < 2048 := by omega
      exact ⟨by omega, hfits, (ih hfits).2 (by omega)⟩

theorem inBounds_single {b : PageBuffer} {s : List Char} :
    InBounds PageBuffer.size [(b, s)] ↔ s.length < b.size :=
  inBounds_cons.trans (and_iff_left inBounds_nil)

/-- Where nothing is read at an index, only the strings matter. -/
theorem Page.fits_iff {formatted : List (PageBuffer × List Char)} {mem : Int → Char}
    {processed : Bool} : (Page.mk formatted none mem processed).Fits ↔
      InBounds PageBuffer.size formatted := by
  refine ⟨fun h => h.formatted, fun h => ⟨h, ?_⟩⟩
  rintro r ⟨⟩

/-- A page that is one string. -/
theorem Page.fits_single {b : PageBuffer} {s : List Char} {mem : Int → Char}
    (h : s.length < b.size) : (Page.mk [(b, s)] none mem true).Fits :=
  Page.fits_iff.2 (inBounds_single.2 h)

/-- A factor of 5 does not change which of the first slots is meant. -/
theorem five_mul_emod_eq_iff (x : Int) {k : Nat} (hk : k < 75) :
    5 * x % 1073741824 = 5 * k ↔ x % 1073741824 = k := by
  constructor
  · intro h
    have hdvd : (1073741824 : Int) ∣ 5 * x - 5 * k := Int.dvd_self_sub_of_emod_eq h
    clear h
    -- `-858993459` is the inverse of 5.
    have hinv : x - k = 1073741824 * (4 * (x - k)) - 858993459 * (5 * x - 5 * k) := by omega
    have hsub : (1073741824 : Int) ∣ x - k := by
      rw [hinv]
      exact Int.dvd_sub (Int.dvd_mul_right _ _) (Int.dvd_mul_of_dvd_right hdvd)
    clear hdvd hinv
    omega
  · intro h
    omega

/-- The offset is that of slot `k` when the number is `k`, up to where the product wraps. -/
theorem nameOffset_eq_iff {s : List Char} {k : Nat} (hk : k < 75) :
    nameOffset s = 20 * k ↔ atoi s % 2 ^ 30 = k := by
  have h30 : (2 : Int) ^ 30 = 1073741824 := rfl
  have h32 : ((2 ^ 32 : Nat) : Int) = 4294967296 := rfl
  have hmod : 20 * atoi s % 4294967296 = 4 * (5 * atoi s % 1073741824) := by omega
  have hnonneg := Int.emod_nonneg (5 * atoi s) (by decide : (1073741824 : Int) ≠ 0)
  have hlt := Int.emod_lt_of_pos (5 * atoi s) (by decide : (0 : Int) < 1073741824)
  rw [nameOffset, BitVec.toInt_ofInt, Int.bmod_def, h30, h32, hmod, ← five_mul_emod_eq_iff _ hk]
  generalize 5 * atoi s % 1073741824 = m at hnonneg hlt ⊢
  split <;> omega

theorem changename_fits_iff (site : Site) (s : List Char) :
    (changename site s).Fits ↔ NameFits site s := by
  have h₁ : (gbk "<input type=\"hidden\" name=\"input_1\" value=\"").length = 43 :=
    length_gbk (by decide)
  have h₂ : (gbk "\" /><br />").length = 10 := length_gbk (by decide)
  have h₃ : (gbk "<br />").length = 6 := length_gbk (by decide)
  have hformatted : InBounds PageBuffer.size (changename site s).formatted ↔
      s.length + (nameAt site.gNameCNCA (nameOffset s)).length < 1791 := by
    rw [changename, inBounds_cons, inBounds_single]
    simp only [List.length_append, length_changenameForm, length_changenameForm1, h₁, h₂, h₃,
      PageBuffer.size]
    omega
  have hindexed : (∀ r ∈ (changename site s).indexed, InSlot r) ↔
      InSlot (nameOffset s, nameAt site.gNameCNCA (nameOffset s)) :=
    ⟨fun h => h _ rfl, fun h r hr => Option.some.inj hr ▸ h⟩
  constructor
  · intro h
    obtain ⟨k, hk, hoffset, hend⟩ := hindexed.1 h.indexed
    have hlen := hformatted.1 h.formatted
    dsimp only at hoffset hend
    rw [hoffset] at hend hlen
    exact ⟨k, hk, (nameOffset_eq_iff hk).1 hoffset, by omega, hlen⟩
  · rintro ⟨k, hk, hnumber, hend, hlen⟩
    have hoffset := (nameOffset_eq_iff hk).2 hnumber
    refine ⟨hformatted.2 ?_, hindexed.2 ⟨k, hk, hoffset, ?_⟩⟩
    · rw [hoffset]
      exact hlen
    · dsimp only
      rw [hoffset]
      omega

theorem inBounds_mcChangeip (newip pmask : List Char) :
    InBounds PageBuffer.size (mcChangeip newip pmask) ↔ newip.length + pmask.length < 1014 := by
  have h₁ : (gbk "changeip ").length = 9 := length_gbk (by decide)
  have h₂ : (gbk " ").length = 1 := length_gbk (by decide)
  rw [mcChangeip, inBounds_single]
  simp only [List.length_append, h₁, h₂, PageBuffer.size]
  omega

theorem inBounds_changeip (site : Site) : InBounds PageBuffer.size (changeip site) := by
  have h₁ : (gbk "原ip地址: ").length = 10 := length_gbk (by decide)
  have h₂ : (gbk "<br />").length = 6 := length_gbk (by decide)
  have hip := site.serverip.2
  rw [changeip, inBounds_cons, inBounds_single]
  simp only [List.length_append, length_changeipForm, length_changeipForm1, h₁, h₂,
    PageBuffer.size]
  omega

/-- Each port that is counted has its own number. -/
theorem pn_getRealName (n : Int) (out : Option (List Char)) {i : Nat}
    (hi : i < (getRealName n out).num) : (getRealName n out).pn i = i := by
  cases out with
  | none => exact absurd hi (Nat.not_lt_zero i)
  | some text => exact (renumber_first _).2 i hi

/-- So the lines of eight ports have the names of the first eight slots. -/
theorem nameRows_eq {n : Int} {out : Option (List Char)} (hnum : (getRealName n out).num = 8)
    (t : List Char) :
    (List.range (getRealName n out).num).map (fun i : Nat =>
        nameRow (nameAt (getRealName n out).pCNCA (20 * (getRealName n out).pn i)) t i) =
      (List.range 8).map fun i : Nat => nameRow (nameAt (getRealName n out).pCNCA (20 * i)) t i := by
  rw [hnum]
  refine List.map_congr_left fun i hi => ?_
  have hi' : i < (getRealName n out).num := by
    rw [hnum]
    exact List.mem_range.1 hi
  rw [pn_getRealName n out hi']

theorem index_fits_iff (site : Site) (req : Request) :
    (index site req).Fits ↔ IndexFits site req := by
  have h₁ : (gbk "<table border=\"1\"><tr><td></td><td>本机串口设备名</td><td>网络串口名</td></tr>").length
      = 78 := length_gbk (by decide)
  have h₂ : (gbk "</table>").length = 8 := length_gbk (by decide)
  have h₃ : (gbk "<table><tr><td>未安装驱动程序</td></tr></table>").length = 47 :=
    length_gbk (by decide)
  have hnil : ([] : List Char).length < 2048 := by decide
  unfold index IndexFits
  dsimp only
  rw [Page.fits_iff]
  split
  · next hnum =>
    rw [nameRows_eq hnum, inBounds_strcats hnil]
    simp only [List.flatten_append, List.flatten_cons, List.flatten_nil, List.append_nil,
      List.length_append, length_serverRows, h₁, h₂, List.length_nil]
    rw [length_nameRows _ _ fun i hi => List.mem_range.1 hi, List.length_range, namesLength]
    constructor
    · intro h _
      omega
    · intro h
      have hlt := h hnum
      omega
  · next hnum =>
    refine iff_of_true (inBounds_append.2 ⟨(inBounds_strcats hnil _).2 ?_, ?_⟩)
      fun h => absurd h hnum
    · have hserver := serverLength_le site (intText req.t.toInt)
      have ht := length_intText_word req.t
      rw [length_serverRows, List.length_nil]
      omega
    · rw [inBounds_single, h₃]
      decide

/-- Names that end in their slots are short. -/
theorem namesLength_le {pCNCA : Int → Char} (h : ∀ i < 8, (slot pCNCA i).length < 20) :
    namesLength pCNCA ≤ 152 := by
  have hall : ∀ is : List Nat, (∀ i ∈ is, i < 8) →
      (is.flatMap fun i : Nat => nameAt pCNCA (20 * i)).length ≤ 19 * is.length := by
    intro is his
    induction is with
    | nil => exact Nat.le_refl 0
    | cons i is ih =>
      rw [List.forall_mem_cons] at his
      have hi := h i his.1
      have hrest := ih his.2
      have hname : nameAt pCNCA (20 * i) = slot pCNCA i := stringAt_of_lt hi (by decide)
      rw [List.flatMap_cons, List.length_append, List.length_cons, hname]
      omega
  exact hall (List.range 8) fun i hi => List.mem_range.1 hi

/-- **The index page fits** when the names of the listing end in their slots. -/
theorem index_fits {site : Site} {req : Request}
    (h : ∀ i < 8, (slot (getRealName req.n req.out).pCNCA i).length < 20) :
    (index site req).Fits := by
  rw [index_fits_iff]
  intro _
  have hnames := namesLength_le h
  have ht := length_intText_word req.t
  have hserver := serverLength_le site (intText req.t.toInt)
  omega

/-- **Its links lead to pages that fit**: those of any slot whose name ends in it. -/
theorem changename_link_fits {site : Site} {i : Nat} (hi : i < 75)
    (h : (slot site.gNameCNCA i).length < 20) : (changename site (intText i)).Fits := by
  have htext : intText i = Nat.toDigits 10 i := by
    rw [intText, if_neg (by omega), Int.natAbs_natCast]
  have hatoi : atoi (intText i) = i := by
    rw [atoi, htext, integer_toDigits, Option.map_some, Option.getD_some, saturate]
    omega
  have hname : nameAt site.gNameCNCA (20 * i) = slot site.gNameCNCA i :=
    stringAt_of_lt h (by decide)
  have hlen := length_intText_le (v := i) (by omega)
  refine (changename_fits_iff site _).2 ⟨i, hi, ?_, ?_, ?_⟩
  · rw [hatoi]
    exact Int.emod_eq_of_lt (by omega) (by omega)
  · rw [hname]
    omega
  · rw [hname]
    omega

/-- **The strings of a page fit their buffers, and the table is read where it should be, exactly
when** the request is not one of three kinds: a `/changename` whose number is not that of a slot
with a name that ends in the table, or whose text leaves no room for it; a new address whose
fields have more than 1013 characters; and the index page, when eight ports have names that are
too long for it. -/
theorem pagesFit_iff (site : Site) (req : Request) :
    (beginRequestHandler site req).Fits ↔ req.Fits site := by
  have hnum := length_intText_word site.gNum
  have hserver := length_serverText_lt site
  have h₁ : (gbk " ").length = 1 := length_gbk (by decide)
  have h₂ : htmlHeader.length = 12 := length_gbk (by decide)
  have h₃ : htmlEnd.length = 14 := length_gbk (by decide)
  unfold beginRequestHandler Request.Fits
  dsimp only
  cases route (cstr req.uri) with
  | changename => exact changename_fits_iff site _
  | changeipDone => exact Page.fits_iff.trans (inBounds_mcChangeip _ _)
  | index => exact index_fits_iff site req
  | changenameDone =>
    have h₄ : (gbk "change CNCA").length = 11 := length_gbk (by decide)
    have h₅ : (gbk " PortName=COM#,RealPortName=").length = 28 := length_gbk (by decide)
    have hinputs := (length_inputs_le req).1
    refine iff_of_true (Page.fits_single ?_) trivial
    simp only [List.length_append, h₄, h₅, PageBuffer.size]
    omega
  | changeip => exact iff_of_true (Page.fits_iff.2 (inBounds_changeip site)) trivial
  | statustest =>
    have h₄ : (gbk " status: ").length = 9 := length_gbk (by decide)
    have h₅ : (gbk "  == num:").length = 9 := length_gbk (by decide)
    have hstatus := site.gStatus.2
    refine iff_of_true (Page.fits_single ?_) trivial
    simp only [List.length_append, h₁, h₂, h₃, h₄, h₅, PageBuffer.size]
    omega
  | testmc =>
    have h₄ : (gbk " ret str: ").length = 10 := length_gbk (by decide)
    have h₅ : (gbk " num:").length = 5 := length_gbk (by decide)
    have hrcv := site.gRcv.2
    have herr := site.gErr.2
    refine iff_of_true (Page.fits_single ?_) trivial
    simp only [List.length_append, h₁, h₂, h₃, h₄, h₅, PageBuffer.size]
    omega
  | test001 | testkill =>
    refine iff_of_true (Page.fits_single ?_) trivial
    rw [PageBuffer.size]
    omega
  | testsilent =>
    have h₄ : (gbk ", port_connect_8:").length = 17 := length_gbk (by decide)
    have hport := length_intText_word site.portConnect8
    refine iff_of_true (Page.fits_single ?_) trivial
    simp only [List.length_append, h₄, PageBuffer.size]
    omega
  | urlsearchserver =>
    have h₄ : (gbk "searching").length = 9 := length_gbk (by decide)
    refine iff_of_true (Page.fits_single ?_) trivial
    rw [h₄]
    decide
  | handlePostRequest | handlePostRequestRun | indexHtml | runsilent | other =>
    exact iff_of_true (Page.fits_iff.2 inBounds_nil) trivial

/-! ### Requests that do not fit -/

/-- The branch of a URI that begins with `/changename`. -/
theorem route_changename {s : List Char} (hs : s ≠ "_done".toList) :
    route ("/changename".toList ++ s) = .changename := by
  have htake : ("/changename".toList ++ s).take 11 = "/changename".toList :=
    List.take_left' (by decide)
  unfold route
  rw [if_neg, if_neg, if_pos htake]
  · intro h
    have hdrop := congrArg (List.drop 11) h
    rw [List.drop_left' (by decide)] at hdrop
    exact hs (hdrop.trans (by decide))
  · intro h
    rw [h] at htake
    revert htake
    decide

theorem changename_fits {site : Site} {req : Request} {s : List Char}
    (huri : req.uri = "/changename".toList ++ s) (hs : s ≠ "_done".toList)
    (hnul : ∀ c ∈ s, c.toNat ≠ 0) :
    (beginRequestHandler site req).Fits ↔ NameFits site s := by
  have hall : ∀ c ∈ req.uri, c.toNat ≠ 0 := by
    rw [huri]
    exact List.forall_mem_append.2 ⟨forall_mem_of_all (by decide), hnul⟩
  unfold beginRequestHandler
  dsimp only
  rw [cstr_eq_self hall, huri, route_changename hs, List.drop_left' (by decide)]
  exact changename_fits_iff site s

theorem changeipDone_fits {site : Site} {req : Request}
    (huri : route (cstr req.uri) = .changeipDone) : (beginRequestHandler site req).Fits ↔
      (inputs req).1.length + (inputs req).2.length < 1014 := by
  unfold beginRequestHandler
  dsimp only
  rw [huri]
  exact Page.fits_iff.trans (inBounds_mcChangeip _ _)

/-- The fields of a body that has only the first of them. -/
theorem inputs_single {req : Request} {v : List Char}
    (hread : mgRead req.conn 1024 =
      ((("input_1".toList ++ '=' :: v).length : Int), "input_1".toList ++ '=' :: v))
    (hv : ∀ c ∈ v, Plain c ∧ c.toNat ≠ 0) (hlen : v.length < 1024) : inputs req = (v, []) := by
  unfold inputs
  rw [hread]
  dsimp only
  generalize hbody : "input_1".toList ++ '=' :: v = body
  have hdata : ∀ i c, body[i]? = some c → body.getD i (req.postData i) = c := by
    intro i c hc
    rw [List.getD_eq_getElem?_getD, hc, Option.getD_some]
  have hfirst : mgGetVar (fun i => body.getD i (req.postData i)) body.length "input_1".toList 1024 =
      (v, (v.length : Int)) := by
    rw [← hbody] at hdata ⊢
    exact mgGetVar_single hdata (fun c hc => (hv c hc).1) hlen
  have hsecond : (mgGetVar (fun i => body.getD i (req.postData i)) body.length
      "input_2".toList 1024).1 = [] := by
    have hamp : ∀ c ∈ body, c ≠ '&' := by
      rw [← hbody]
      refine List.forall_mem_append.2 ⟨forall_mem_of_all (by decide), ?_⟩
      exact List.forall_mem_cons.2 ⟨by decide, fun c hc => (hv c hc).1.2.2⟩
    have hsix : body[6]? = some '1' := by
      rw [← hbody]
      rfl
    refine mgGetVar_absent (i := 6) (c := '2') rfl ?_ (fun j hj => ?_) 1024
    · rw [hdata 6 '1' hsix]
      decide
    · have hj' : j < body.length := Int.ofNat_lt.1 hj
      rw [hdata j _ (List.getElem?_eq_getElem hj')]
      exact hamp _ (List.getElem_mem hj')
  rw [hfirst, hsecond, cstr_eq_self fun c hc => (hv c hc).2]
  rfl

/-- **A form with one long field** does not fit, and there is room for one in its body. -/
theorem not_fits_of_long {site : Site} {req : Request} {v : List Char}
    (huri : route (cstr req.uri) = .changeipDone)
    (hconn : req.conn =
      ⟨("input_1".toList ++ '=' :: v).length, 0, "input_1".toList ++ '=' :: v, []⟩)
    (hv : ∀ c ∈ v, Plain c ∧ c.toNat ≠ 0) (hlong : 1014 ≤ v.length) (hle : v.length ≤ 1016) :
    ¬ (beginRequestHandler site req).Fits := by
  intro h
  have hbody : ("input_1".toList ++ '=' :: v).length = 8 + v.length := by
    rw [List.length_append, List.length_cons, show "input_1".toList.length = 7 by decide]
    omega
  have hread : mgRead req.conn 1024 =
      ((("input_1".toList ++ '=' :: v).length : Int), "input_1".toList ++ '=' :: v) := by
    rw [hconn]
    exact mgRead_buffered (by omega)
  have hlen := (changeipDone_fits huri).1 h
  rw [inputs_single hread hv (by omega)] at hlen
  dsimp only at hlen
  omega

/-- A number behind the last slot, a text that is longer than the buffers, and a form with one
long field. -/
theorem not_pagesFit :
    let unknown : List Char := "unknown".toList
    let site : Site :=
      { serverip := ⟨unknown, by decide⟩, servermac := ⟨unknown, by decide⟩
        servername := ⟨unknown, by decide⟩, hhmmssFound := ⟨unknown, by decide⟩
        gStatus := ⟨[], by decide⟩, gRcv := ⟨[], by decide⟩, gErr := ⟨[], by decide⟩
        gNum := 0, portConnect8 := 0, gNameCNCA := fun _ => nul }
    let body := "input_1".toList ++ '=' :: List.replicate 1016 '1'
    let request (uri body : List Char) : Request :=
      ⟨uri, ⟨body.length, 0, body, []⟩, fun _ => nul, 0, none, 0⟩
    ¬ (beginRequestHandler site (request ("/changename".toList ++ "75".toList) [])).Fits ∧
      ¬ (beginRequestHandler site
        (request ("/changename".toList ++ List.replicate 2000 'x') [])).Fits ∧
      ¬ (beginRequestHandler site (request "/changeip_done".toList body)).Fits := by
  intro unknown site body request
  refine ⟨fun h => ?_, fun h => ?_, fun h => ?_⟩
  · obtain ⟨k, hk, hnumber, -⟩ := (changename_fits rfl (by decide)
      (forall_mem_of_all (by decide))).1 h
    have hatoi : atoi "75".toList % 2 ^ 30 = 75 := by decide
    omega
  · have hnul : ∀ c ∈ List.replicate 2000 'x', c.toNat ≠ 0 := by
      intro c hc
      rw [List.eq_of_mem_replicate hc]
      decide
    have hne : List.replicate 2000 'x' ≠ "_done".toList := fun heq =>
      absurd (congrArg List.length heq) (by rw [List.length_replicate]; decide)
    obtain ⟨k, -, -, -, hlen⟩ := (changename_fits rfl hne hnul).1 h
    rw [List.length_replicate] at hlen
    omega
  · have hv : ∀ c ∈ List.replicate 1016 '1', Plain c ∧ c.toNat ≠ 0 := by
      intro c hc
      rw [List.eq_of_mem_replicate hc]
      decide
    have hlen : (List.replicate 1016 '1').length = 1016 := List.length_replicate
    exact not_fits_of_long (by decide) rfl hv (by omega) (by omega) h

end SerialServer.Main37
