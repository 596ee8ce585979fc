import SerialServer.Server.Answers

/-!
# SerialServer.Server.AddressChange

A request for a new address, from the read to the last of its effects.

The loop acknowledges the request, then `setnewip` calls `mySaveBAT`, which writes the boot
script, writes the run script and runs it, and afterwards sets the four globals. A failed
`fopen` ends `mySaveBAT` early and nobody learns of it: `mySaveBAT_eq` says what each
combination of failures leaves. Before all this `tcp51` has read the interface into the
globals, so a request that comes to nothing leaves them alone only if they were up to date:
`all_or_nothing_iff` says when the whole is all or nothing.
-/

namespace SerialServer.Mrs2s

open Mrs2lib

/-- What the boot script holds after an address change. -/
def bootScript (pip pmask : List Char) : Script := ["#!/bin/sh".toList, ifconfigLine pip pmask]

/-- The script that puts a new address into effect. -/
def runScript (pip pmask : List Char) : Script :=
  ["#!/bin/sh".toList, "killall mrs".toList, "killall ser2net".toList, ifconfigLine pip pmask,
    "/root/run/ser2net -c /root/run/ser2net.conf &".toList, "/root/run/mrs eth0 100 &".toList]

/-- What `mySaveBAT` leaves: the boot script needs one file, the run script both. -/
theorem mySaveBAT_eq (env : FopenEnv) (pip pmask : List Char) (s : Server) :
    mySaveBAT env pip pmask s =
      { s with
        batip0 := if env.batip0 then some (bootScript pip pmask) else s.batip0
        batnewip := if env.batip0 && env.batnewip then some (runScript pip pmask) else s.batnewip
        ran := if env.batip0 && env.batnewip then s.ran ++ [runScript pip pmask] else s.ran } := by
  obtain ⟨b0, b1⟩ := env
  cases b0 <;> cases b1 <;> rfl

/-! ### One request -/

/-- A request for an address other than that of `eth0`, as it lies in the receive buffer. -/
structure AsksNewAddress (m : Machine) (e : Eth0) (buf : Buf) : Prop where
  crc : crcOk m buf = true
  type : m.lowByte (buf 0) = 0x51
  differs : buf.loadInt m 4 ≠ e.ip ∨ buf.loadInt m 8 ≠ e.mask

/-- The globals and files of `s'` are those of `s`, brought to address `sip` and mask
`smask`, and the script that reconfigures the interface has been run. -/
structure Changed (m : Machine) (sip smask : Word) (s s' : Server) : Prop where
  batip0 : s'.batip0 = some (bootScript (inetNtoa m sip) (inetNtoa m smask))
  batnewip : s'.batnewip = some (runScript (inetNtoa m sip) (inetNtoa m smask))
  ran : s'.ran = s.ran ++ [runScript (inetNtoa m sip) (inetNtoa m smask)]
  gip : s'.gip = sip
  gipmask : s'.gipmask = smask
  gszip : s'.gszip = inetNtoa m sip
  gszipmask : s'.gszipmask = inetNtoa m smask

/-- The files, the interface and the four globals are as in `s`. -/
structure Unchanged (s s' : Server) : Prop where
  batip0 : s'.batip0 = s.batip0
  batnewip : s'.batnewip = s.batnewip
  ran : s'.ran = s.ran
  gip : s'.gip = s.gip
  gipmask : s'.gipmask = s.gipmask
  gszip : s'.gszip = s.gszip
  gszipmask : s'.gszipmask = s.gszipmask

/-- The four globals hold the address that `eth0` has. -/
structure UpToDate (m : Machine) (e : Eth0) (s : Server) : Prop where
  gip : s.gip = e.ip
  gipmask : s.gipmask = e.mask
  gszip : s.gszip = inetNtoa m e.ip
  gszipmask : s.gszipmask = inetNtoa m e.mask

/-- Reading the interface is the identity on the globals if and only if they were up to
date. -/
theorem unchanged_getipEth0_iff (m : Machine) (e : Eth0) (s : Server) :
    Unchanged s (getipEth0 m e s) ↔ UpToDate m e s := by
  constructor
  · rintro ⟨-, -, -, hip, hmask, hsz, hszmask⟩
    rw [getipEth0_gip] at hip
    rw [getipEth0_gipmask] at hmask
    exact ⟨hip.symm, hmask.symm, hsz.symm, hszmask.symm⟩
  · intro h
    refine ⟨rfl, rfl, rfl, ?_, ?_, h.gszip.symm, h.gszipmask.symm⟩
    · rw [getipEth0_gip, h.gip]
    · rw [getipEth0_gipmask, h.gipmask]

/-- The read of `d` changes the address as a whole or not at all, and acknowledges only the
former. -/
def AllOrNothing (m : Machine) (env : TurnEnv) (c : Child) (d : Chunk) : Prop :=
  let buf := c.buf.store 0 d.bytes
  let c' := clientTurn m env c (.data d)
  (Changed m (buf.loadInt m 4) (buf.loadInt m 8) c.srv c'.srv ∧
      c'.sent = c.sent ++ [ackFrame]) ∨
    (Unchanged c.srv c'.srv ∧ c'.sent = c.sent)

/-- The branch of the loop for an address change. -/
theorem answer_0x51 (m : Machine) (env : TurnEnv) (c : Child) :
    answer m env c 0x51 =
      if !env.sendOk 0 then { c with running := false }
      else
        { c with
          sent := c.sent ++ [c.outbuf.slice 0 (c.poutlen 0).toNat]
          srv := (setnewip m env.fopen c.srv c.buf).2 } := by
  rw [answer, if_neg (by decide), if_neg (by decide), if_pos rfl]

/-- **What a request for a new address does**: the interface is read and the request
acknowledged; if that can be sent, `setnewip` does the rest. -/
theorem clientTurn_setnewip {m : Machine} {env : TurnEnv} {c : Child} (hrun : c.running = true)
    {d : Chunk} (h : AsksNewAddress m env.eth0 (c.buf.store 0 d.bytes)) :
    let buf := c.buf.store 0 d.bytes
    let sip := buf.loadInt m 4
    let smask := buf.loadInt m 8
    let s := getipEth0 m env.eth0 c.srv
    let c' := clientTurn m env c (.data d)
    if env.sendOk 0 then
      c'.sent = c.sent ++ [ackFrame] ∧
        c'.srv = { mySaveBAT env.fopen (inetNtoa m sip) (inetNtoa m smask) s with
          gip := sip, gipmask := smask, gszip := inetNtoa m sip, gszipmask := inetNtoa m smask }
    else c'.sent = c.sent ∧ c'.srv = s := by
  intro buf sip smask s c'
  have hpos : (0 : Int) < d.bytes.length := by
    have := d.pos
    omega
  have h50 : ¬ m.lowByte (buf 0) = 0x50 := by
    rw [h.type]
    decide
  have ht : tcp2send m env.eth0 c.srv buf d.bytes.length c.outbuf c.poutlen = _ :=
    (tcp2send_accepted hpos h.crc env.eth0 c.srv c.outbuf c.poutlen).trans
      ((if_neg h50).trans ((if_pos h.type).trans (tcp51_eq ..)))
  have hc' : c' = _ := if_neg (by simp [hrun])
  dsimp only at hc'
  rw [ht] at hc'
  cases hsend : env.sendOk 0 with
  | false =>
    have hfail : c' = { c with
        buf := buf, outbuf := c.outbuf.store 0 ackFrame
        poutlen := Function.update c.poutlen 0 6, srv := s, running := false } := by
      rw [hc', answer_0x51, if_pos (by simp [hsend])]
    rw [if_neg Bool.false_ne_true, hfail]
    exact ⟨rfl, rfl⟩
  | true =>
    -- The acknowledgement leaves before `setnewip` is called.
    have hslice : (c.outbuf.store 0 ackFrame).slice 0 6 = ackFrame :=
      Buf.slice_store c.outbuf 0 ackFrame
    have hdone : c' = { c with
        buf := buf, outbuf := c.outbuf.store 0 ackFrame
        poutlen := Function.update c.poutlen 0 6
        sent := c.sent ++ [(c.outbuf.store 0 ackFrame).slice 0
          (Function.update c.poutlen 0 6 0).toNat]
        srv := (setnewip m env.fopen s buf).2 } := by
      rw [hc', answer_0x51, if_neg (by simp [hsend])]
    have hnew : sip ≠ s.gip ∨ smask ≠ s.gipmask := by
      rw [getipEth0_gip, getipEth0_gipmask]
      exact h.differs
    rw [if_pos rfl, hdone]
    refine ⟨?_, ?_⟩
    · rw [Function.update_self]
      exact congrArg (fun f => c.sent ++ [f]) hslice
    · dsimp only
      rw [setnewip, if_neg (not_not_intro h.type), if_pos hnew]

/-- **An address change is all or nothing exactly when** both scripts can be created and the
acknowledgement can be sent, or it cannot be sent, which ends the connection before anything
is changed, and the globals were up to date. -/
theorem all_or_nothing_iff (m : Machine) (env : TurnEnv) (c : Child) (hrun : c.running = true)
    (d : Chunk) (h : AsksNewAddress m env.eth0 (c.buf.store 0 d.bytes)) :
    AllOrNothing m env c d ↔
      (env.sendOk 0 = true ∧ env.fopen.batip0 = true ∧ env.fopen.batnewip = true) ∨
        (env.sendOk 0 = false ∧ UpToDate m env.eth0 c.srv) := by
  have hturn := clientTurn_setnewip hrun h
  dsimp only at hturn
  rw [mySaveBAT_eq] at hturn
  unfold AllOrNothing
  dsimp only
  cases hsend : env.sendOk 0 with
  | false =>
    rw [hsend, if_neg Bool.false_ne_true] at hturn
    obtain ⟨hsent, hsrv⟩ := hturn
    rw [hsrv, ← unchanged_getipEth0_iff]
    constructor
    · rintro (⟨hchanged, -⟩ | ⟨hsame, -⟩)
      · -- The list of scripts that were run has not grown.
        have hran : c.srv.ran = c.srv.ran ++ [_] := hchanged.ran
        simp at hran
      · exact .inr ⟨rfl, hsame⟩
    · rintro (⟨hfalse, -⟩ | ⟨-, hsame⟩)
      · cases hfalse
      · exact .inr ⟨hsame, hsent⟩
  | true =>
    rw [hsend, if_pos rfl] at hturn
    obtain ⟨hsent, hsrv⟩ := hturn
    constructor
    · rintro (⟨hchanged, -⟩ | ⟨-, hquiet⟩)
      · -- The list of scripts that were run grows only if both files were opened.
        have hran := (congrArg Server.ran hsrv).symm.trans hchanged.ran
        by_cases hboth : (env.fopen.batip0 && env.fopen.batnewip) = true
        · exact .inl ⟨rfl, Bool.and_eq_true_iff.1 hboth⟩
        · have hsame : c.srv.ran = c.srv.ran ++ [_] := (if_neg hboth).symm.trans hran
          simp at hsame
      · rw [hsent] at hquiet
        exact absurd hquiet (by simp)
    · rintro (⟨-, h0, h1⟩ | ⟨hfalse, -⟩)
      · refine .inl ⟨?_, hsent⟩
        rw [hsrv, h0, h1]
        exact ⟨rfl, rfl, rfl, rfl, rfl, rfl, rfl⟩
      · cases hfalse

/-! ### At one request -/

/-- The request for address 10.0.0.2 and mask 255.0.0.0. -/
def newAddressRequest : Chunk where
  bytes := withCheck [0x51, 0x00, 0x09, 0x00, 10, 0, 0, 2, 255, 0, 0, 0]
  pos := by decide
  le := by decide

theorem all_or_nothing_iff_request :
    let m : Machine := ⟨.little, .signed⟩
    let env : TurnEnv := ⟨⟨0x0100000a, 0xff⟩, ⟨true, true⟩, fun _ => true⟩
    AllOrNothing m env freshChild newAddressRequest ↔
      (env.sendOk 0 = true ∧ env.fopen.batip0 = true ∧ env.fopen.batnewip = true) ∨
        (env.sendOk 0 = false ∧ UpToDate m env.eth0 freshChild.srv) :=
  all_or_nothing_iff _ _ _ rfl _ ⟨by decide +kernel, by decide, by decide +kernel⟩

/-- When the boot script cannot be created the client is told of a success all the same, and
the globals take the new address. -/
theorem not_all_or_nothing :
    let m : Machine := ⟨.little, .signed⟩
    let env : TurnEnv := ⟨⟨0x0100000a, 0xff⟩, ⟨false, true⟩, fun _ => true⟩
    AsksNewAddress m env.eth0 (freshChild.buf.store 0 newAddressRequest.bytes) ∧
      ¬ AllOrNothing m env freshChild newAddressRequest := by
  intro m env
  have hasks : AsksNewAddress m env.eth0 (freshChild.buf.store 0 newAddressRequest.bytes) :=
    ⟨by decide +kernel, by decide, by decide +kernel⟩
  refine ⟨hasks, ?_⟩
  have hturn := clientTurn_setnewip (c := freshChild) rfl hasks
  dsimp only at hturn
  rw [if_pos rfl] at hturn
  obtain ⟨hsent, hsrv⟩ := hturn
  rintro (⟨hchanged, -⟩ | ⟨-, hquiet⟩)
  · have hboot := hchanged.batip0
    rw [hsrv] at hboot
    cases hboot
  · rw [hsent] at hquiet
    exact absurd hquiet (by simp)

end SerialServer.Mrs2s
