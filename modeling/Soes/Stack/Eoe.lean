import Soes.Stack.Mailbox
import Soes.Stack.State

/-!
# Ethernet over EtherCAT

`esc_eoe.c`: Ethernet frames that come and go in fragments, one to a mailbox message, and the IP
parameters of the one port, which the master may set and read.

The frame buffers belong to the application, which hands them out and takes them over; the
callbacks given to `EOE_config` are arbitrary application code, within what each is handed.

Offsets into a buffer are those of `_EOE`: `frameinfo1` at 6, `frameinfo2` or the result at 8, the
data at 10.
-/

namespace Soes

open Program

variable {σ : Type}

/-! ## Configuration and state -/

/-- `eoe_pbuf_t`. -/
structure EoePbuf where
  /-- What `payload` points to, `none` for `NULL`. -/
  payload : Option ByteStore
  len : ℕ

/-- `eoe_param_t`.  An address is kept in the byte order of the network. -/
structure EoeParam where
  macSet : Bool
  ipSet : Bool
  subnetSet : Bool
  defaultGatewaySet : Bool
  dnsIpSet : Bool
  dnsNameSet : Bool
  mac : ByteStore
  /-- `ip.addr`. -/
  ip : Dword
  /-- `subnet.addr`. -/
  subnet : Dword
  /-- `default_gateway.addr`. -/
  defaultGateway : Dword
  /-- `dns_ip.addr`. -/
  dnsIp : Dword
  dnsName : ByteStore

/-- `eoe_cfg_t`. -/
structure EoeCfg (σ : Type) where
  getBuffer : Option (σ → EoePbuf → σ × EoePbuf)
  freeBuffer : Option (σ → EoePbuf → σ)
  /-- `load_eth_settings`, which may set the parameters; its result is not looked at. -/
  loadEthSettings : Option (σ → EoeParam → σ × EoeParam)
  /-- `store_ethernet_settings`; the last component is its result. -/
  storeEthernetSettings : Option (σ → EoeParam → σ × EoeParam × Word)
  handleRecvBuffer : σ → ℕ → EoePbuf → σ
  /-- `fetch_send_buffer` for port 0; the last component is its result, the size of the frame. -/
  fetchSendBuffer : σ → EoePbuf → σ × EoePbuf × ℤ
  fragmentSentEvent : Option (σ → σ)

/-- `EOEvar`, with the other variables of `esc_eoe.c`. -/
structure Eoe where
  rxebuf : EoePbuf
  txebuf : EoePbuf
  rxfragmentno : ℕ
  rxframesize : ℕ
  rxframeoffset : ℕ
  rxframeno : ℕ
  txfragmentno : ℕ
  txframesize : ℕ
  txframeoffset : ℕ
  frameno : ℕ
  /-- `nic_ports`, which has one element. -/
  nicPort : EoeParam

/-- What the EoE code works on. -/
structure EoeMem (σ : Type) where
  outside : σ
  mb : Mailbox
  eoe : Eoe

/-- What the EoE code is given. -/
structure EoeEnv (σ : Type) where
  opts : Options
  cfg : EoeCfg σ

/-- The mailboxes of the EoE side. -/
@[simps] def eoeMbOf : Component (EoeMem σ) Mailbox where
  get s := s.mb
  put m s := { s with mb := m }
  get_put _ _ := rfl
  put_get _ := rfl

/-- EoE code. -/
abbrev OnEoe (σ α : Type) : Type := Program (EoeEnv σ) Fault (EoeMem σ) α

/-- Run mailbox code as EoE code. -/
abbrev onEoeMb {α : Type} (m : OnMailbox α) : OnEoe σ α :=
  Program.within (fun env _ => env.opts) eoeMbOf m

/-- Change the mailboxes. -/
def eoeModifyMb (f : Mailbox → Mailbox) : OnEoe σ Unit := modify fun s => { s with mb := f s.mb }

/-- Change the module's variables. -/
def eoeModify (f : Eoe → Eoe) : OnEoe σ Unit := modify fun s => { s with eoe := f s.eoe }

namespace Mailbox

variable (m : Mailbox)

/-- `eoeheader.frameinfo1` of the inbox. -/
def frameinfo1 : Word := m.mbx.word 6
/-- `eoeheader.frameinfo2` of the inbox. -/
def frameinfo2 : Word := m.mbx.word 8
/-- Address of the data of an EoE message. -/
abbrev eoeDataOffset : ℕ := 10

/-- `EOE_HDR_FRAME_PORT_GET` of the inbox. -/
def eoePort : ℕ := ((m.frameinfo1 >>> 4) &&& 0xF).toNat
/-- `EOE_HDR_FRAG_NO_GET` of the inbox. -/
def eoeFragNo : ℕ := (m.frameinfo2 &&& 0x3F).toNat
/-- `EOE_HDR_FRAME_OFFSET_GET` of the inbox, in bytes. -/
def eoeFrameOffset : ℕ := ((m.frameinfo2 >>> 6) &&& 0x3F).toNat * 32
/-- `EOE_HDR_FRAME_NO_GET` of the inbox. -/
def eoeFrameNo : ℕ := ((m.frameinfo2 >>> 12) &&& 0xF).toNat
/-- The number of data bytes of the inbox. -/
def eoeDataSize : ℕ := sub32 (m.headerLength 0).toNat escEoehsize

/-- Fill in the headers of an EoE message in buffer `n`. -/
def putEoe (n length : ℕ) (frameinfo1 frameinfo2 : Word) : Mailbox :=
  (m.setHeader n length mbxeoe).updateMbx fun mbx =>
    (mbx.setWord (m.buffer n + 6) frameinfo1).setWord (m.buffer n + 8) frameinfo2

end Mailbox

/-- `EOE_HDR_FRAME_PORT_SET`. -/
def eoePortSet (port : ℕ) : Word := .ofNat 16 (port % 16 * 16)

/-- `EOE_no_data_response`. -/
def eoeNoDataResponse (frameinfo1 result : Word) : OnEoe σ Unit := do
  let n ← onEoeMb escClaimbuffer
  when (n ≠ 0) <|
    eoeModifyMb fun m => (m.putEoe n escEoehsize frameinfo1 result).setControl n .outreq

/-! ## IP parameters -/

/-- `EOE_ip_uint32_to_byte`: the bytes of an address in a message. -/
def eoeIpUint32ToByte (addr : Dword) : ByteStore := fun i => ByteStore.ofDword addr (3 - i)

/-- `EOE_ip_byte_to_uint32`: the address in a message. -/
def eoeIpByteToUint32 (bytes : ByteStore) (a : ℕ) : Dword :=
  (bytes a ++ bytes (a + 1)) ++ (bytes (a + 2) ++ bytes (a + 3))

/-- `EOE_HTONL` on a little-endian host, and `EOE_NTOHL`. -/
def eoeHtonl (x : Dword) : Dword :=
  ((x &&& 0x000000ff) <<< 24) ||| ((x &&& 0x0000ff00) <<< 8) ||| ((x &&& 0x00ff0000) >>> 8) |||
    ((x &&& 0xff000000) >>> 24)

/-- A getter of the application for one parameter of a port: what is stored in its variable, `none`
for the result -1. -/
def eoeEcatGet {α : Type} (set : EoeParam → Bool) (get : EoeParam → α) (port : ℕ) (p : EoeParam) :
    Option α :=
  if port < eoeNumberOfPorts ∧ set p then some (get p) else none

/-- A setter of the application for one parameter of a port: the parameters and the result. -/
def eoeEcatSet (put : EoeParam → EoeParam) (port : ℕ) (p : EoeParam) : EoeParam × ℤ :=
  if port < eoeNumberOfPorts then (put p, 0) else (p, -1)

/-- `EOE_ecat_get_mac`. -/
def eoeEcatGetMac : ℕ → EoeParam → Option (List Byte) :=
  eoeEcatGet (·.macSet) (·.mac.bytes 0 eoeEthaddrLength)

/-- `EOE_ecat_set_mac`, which does not note that the address is set. -/
def eoeEcatSetMac (port : ℕ) (mac : ByteStore) : EoeParam → EoeParam × ℤ :=
  eoeEcatSet (fun p => { p with mac := p.mac.copy 0 eoeEthaddrLength mac 0 }) port

/-- `EOE_ecat_get_ip`. -/
def eoeEcatGetIp : ℕ → EoeParam → Option Dword := eoeEcatGet (·.ipSet) (eoeHtonl ·.ip)

/-- `EOE_ecat_set_ip`. -/
def eoeEcatSetIp (port : ℕ) (ip : Dword) : EoeParam → EoeParam × ℤ :=
  eoeEcatSet (fun p => { p with ip := eoeHtonl ip, ipSet := true }) port

/-- `EOE_ecat_get_subnet`. -/
def eoeEcatGetSubnet : ℕ → EoeParam → Option Dword :=
  eoeEcatGet (·.subnetSet) (eoeHtonl ·.subnet)

/-- `EOE_ecat_set_subnet`. -/
def eoeEcatSetSubnet (port : ℕ) (subnet : Dword) : EoeParam → EoeParam × ℤ :=
  eoeEcatSet (fun p => { p with subnet := eoeHtonl subnet, subnetSet := true }) port

/-- `EOE_ecat_get_gateway`. -/
def eoeEcatGetGateway : ℕ → EoeParam → Option Dword :=
  eoeEcatGet (·.defaultGatewaySet) (eoeHtonl ·.defaultGateway)

/-- `EOE_ecat_set_gateway`. -/
def eoeEcatSetGateway (port : ℕ) (defaultGateway : Dword) : EoeParam → EoeParam × ℤ :=
  eoeEcatSet (fun p =>
    { p with defaultGateway := eoeHtonl defaultGateway, defaultGatewaySet := true }) port

/-- `EOE_ecat_get_dns_ip`. -/
def eoeEcatGetDnsIp : ℕ → EoeParam → Option Dword := eoeEcatGet (·.dnsIpSet) (eoeHtonl ·.dnsIp)

/-- `EOE_ecat_set_dns_ip`. -/
def eoeEcatSetDnsIp (port : ℕ) (dnsIp : Dword) : EoeParam → EoeParam × ℤ :=
  eoeEcatSet (fun p => { p with dnsIp := eoeHtonl dnsIp, dnsIpSet := true }) port

/-- `EOE_ecat_get_dns_name`. -/
def eoeEcatGetDnsName : ℕ → EoeParam → Option (List Byte) :=
  eoeEcatGet (·.dnsNameSet) (·.dnsName.bytes 0 eoeDnsNameLength)

/-- `EOE_ecat_set_dns_name`, which takes 32 bytes from its argument. -/
def eoeEcatSetDnsName (port : ℕ) (dnsName : ByteStore) : EoeParam → EoeParam × ℤ :=
  eoeEcatSet (fun p =>
    { p with dnsName := p.dnsName.copy 0 eoeDnsNameLength dnsName 0, dnsNameSet := true }) port

/-- The parameters of a Get IP response in their order: whether each is set, its flag, its bytes
and their number. -/
def EoeParam.fields (p : EoeParam) : List (Bool × Byte × ByteStore × ℕ) :=
  [(p.macSet, eoeParamMacInclude, p.mac, eoeEthaddrLength),
    (p.ipSet, eoeParamIpInclude, eoeIpUint32ToByte p.ip, eoeIp4Length),
    (p.subnetSet, eoeParamSubnetIpInclude, eoeIpUint32ToByte p.subnet, eoeIp4Length),
    (p.defaultGatewaySet, eoeParamDefaultGatewayInclude, eoeIpUint32ToByte p.defaultGateway,
      eoeIp4Length),
    (p.dnsIpSet, eoeParamDnsIpInclude, eoeIpUint32ToByte p.dnsIp, eoeIp4Length),
    (p.dnsNameSet, eoeParamDnsNameInclude, p.dnsName, eoeDnsNameLength)]

/-- Add the parameters that are set to the data at address `a`: the flags, the offset after them,
and the contents. -/
def putParams (a : ℕ) : List (Bool × Byte × ByteStore × ℕ) → Byte → ℕ → ByteStore →
    Byte × ℕ × ByteStore
  | [], flags, offset, mbx => (flags, offset, mbx)
  | (set, flag, bytes, size) :: rest, flags, offset, mbx =>
      if set then
        putParams a rest (flags ||| flag) (offset + size) (mbx.copy (a + offset) size bytes 0)
      else putParams a rest flags offset mbx

/-- The response to a request with an invalid port. -/
def eoeInvalidPort (port : ℕ) : OnEoe σ Unit :=
  eoeNoDataResponse (eoePortSet port ||| eoeInitResp ||| eoeHdrLastFragment)
    eoeResultUnspecifiedError

/-- `EOE_get_ip`. -/
def eoeGetIp : OnEoe σ Unit := do
  let cfg := (← ask).cfg
  let port := (← get).mb.eoePort
  if eoeNumberOfPorts < port then
    eoeInvalidPort port
  else
    match cfg.loadEthSettings with
    | none => pure ()
    | some call => modify fun s =>
        let a := call s.outside s.eoe.nicPort
        { s with outside := a.1, eoe := { s.eoe with nicPort := a.2 } }
    let n ← onEoeMb escClaimbuffer
    when (n ≠ 0) do
      let p := (← get).eoe.nicPort
      eoeModifyMb fun m =>
        let m := (m.putEoe n 0 (eoePortSet port ||| eoeGetIpParamResp ||| eoeHdrLastFragment)
          0).setControl n .outreq
        let a := m.buffer n + Mailbox.eoeDataOffset
        let (flags, offset, mbx) := putParams a p.fields 0 eoeParamOffset m.mbx
        { m with mbx :=
          (mbx.set a flags).setWord (m.buffer n) (.ofNat 16 (escEoehsize + offset)) }

/-- `EOE_set_ip`, the fixed parameters of a request with the flags `flags` and the data at address
`a`, up to the name: the parameters and the offset after them. -/
def takeParams (mbx : ByteStore) (a : ℕ) (flags : Byte) (p : EoeParam) : EoeParam × ℕ :=
  let off := eoeParamOffset
  let (p, off) :=
    if flags &&& eoeParamMacInclude ≠ 0 then
      ({ p with mac := p.mac.copy 0 eoeEthaddrLength mbx (a + off), macSet := true },
        off + eoeEthaddrLength)
    else (p, off)
  let (p, off) :=
    if flags &&& eoeParamIpInclude ≠ 0 then
      ({ p with ip := eoeIpByteToUint32 mbx (a + off), ipSet := true }, off + eoeIp4Length)
    else (p, off)
  let (p, off) :=
    if flags &&& eoeParamSubnetIpInclude ≠ 0 then
      ({ p with subnet := eoeIpByteToUint32 mbx (a + off), subnetSet := true },
        off + eoeIp4Length)
    else (p, off)
  let (p, off) :=
    if flags &&& eoeParamDefaultGatewayInclude ≠ 0 then
      ({ p with defaultGateway := eoeIpByteToUint32 mbx (a + off), defaultGatewaySet := true },
        off + eoeIp4Length)
    else (p, off)
  if flags &&& eoeParamDnsIpInclude ≠ 0 then
    ({ p with dnsIp := eoeIpByteToUint32 mbx (a + off), dnsIpSet := true }, off + eoeIp4Length)
  else (p, off)

/-- `EOE_set_ip`, all parameters of a request with `size` data bytes. -/
def takeAllParams (mbx : ByteStore) (a size : ℕ) (flags : Byte) (p : EoeParam) : EoeParam × ℕ :=
  let (p, off) := takeParams mbx a flags p
  if flags &&& eoeParamDnsNameInclude ≠ 0 then
    let dnsLen := min (sub32 size off) eoeDnsNameLength
    ({ p with dnsName := p.dnsName.copy 0 dnsLen mbx (a + off), dnsNameSet := true }, off + dnsLen)
  else (p, off)

/-- `EOE_set_ip`. -/
def eoeSetIp : OnEoe σ Unit := do
  let cfg := (← ask).cfg
  let s ← get
  let port := s.mb.eoePort
  if eoeNumberOfPorts < port then
    eoeInvalidPort port
  else
    let (p, off) := takeAllParams s.mb.mbx Mailbox.eoeDataOffset s.mb.eoeDataSize
      (s.mb.mbx Mailbox.eoeDataOffset) s.eoe.nicPort
    eoeModify fun v => { v with nicPort := p }
    let result ← (if s.mb.eoeDataSize < off then pure mbxerrSizetooshort
      else match cfg.storeEthernetSettings with
        | none => pure eoeResultNoIpSupport
        | some call => transact fun _ s =>
            let a := call s.outside s.eoe.nicPort
            (a.2.2, { s with outside := a.1, eoe := { s.eoe with nicPort := a.2.1 } }))
    eoeNoDataResponse (eoePortSet port ||| eoeInitResp ||| eoeHdrLastFragment) result

/-! ## Received fragments -/

/-- `EOE_init_rx`. -/
def eoeInitRx : OnEoe σ Unit := do
  eoeModify fun v =>
    { v with rxfragmentno := 0, rxframesize := 0, rxframeoffset := 0, rxframeno := 0 }
  match (← ask).cfg.getBuffer with
  | none => pure ()
  | some call =>
      when ((← get).eoe.rxebuf.payload.isNone) <| modify fun s =>
        let a := call s.outside s.eoe.rxebuf
        { s with outside := a.1, eoe := { s.eoe with rxebuf := a.2 } }

/-- `EOE_receive_fragment`, the fragment that continues or starts a frame; whether it may. -/
def eoeAcceptFragment (m : Mailbox) : OnEoe σ Bool := do
  let v := (← get).eoe
  if v.rxfragmentno = 0 then
    -- start of a new frame
    eoeModify fun v => { v with rxframesize := m.eoeFrameOffset }
    if v.rxebuf.payload.isSome then
      eoeModify fun v => { v with
        rxebuf := { v.rxebuf with len := v.rxframesize }
        rxframeoffset := 0
        rxframeno := m.eoeFrameNo }
      pure true
    else
      eoeInitRx
      pure false
  else if v.rxframeno ≠ m.eoeFrameNo ∨ v.rxframeoffset ≠ m.eoeFrameOffset then
    eoeInitRx
    pure false
  else
    pure true

/-- `EOE_receive_fragment`, the data of a fragment; whether it fits the frame. -/
def eoeStoreFragment (m : Mailbox) : OnEoe σ Bool := do
  let v := (← get).eoe
  let size := m.eoeDataSize
  if (v.rxframeoffset + size) % 2 ^ 32 ≤ v.rxframesize then
    match v.rxebuf.payload with
    | none => fault .null
    | some payload =>
        eoeModify fun v => { v with
          rxebuf := { v.rxebuf with
            payload := some (payload.copy v.rxframeoffset size m.mbx Mailbox.eoeDataOffset) }
          rxframeoffset := (v.rxframeoffset + size) % 2 ^ 32
          rxfragmentno := (v.rxfragmentno + 1) % 256 }
        pure true
  else
    eoeInitRx
    pure false

/-- `EOE_receive_fragment`, the frame is complete. -/
def eoeDeliverFrame (m : Mailbox) : OnEoe σ Unit := do
  let cfg := (← ask).cfg
  -- remove the time stamp
  when (m.frameinfo1.getLsbD 9) <|
    eoeModify fun v => { v with rxframeoffset := sub32 v.rxframeoffset 4 }
  modify fun s =>
    let buf := { s.eoe.rxebuf with len := s.eoe.rxframeoffset }
    { s with
      outside := cfg.handleRecvBuffer s.outside m.eoePort buf
      -- the receive function owns the buffer
      eoe := { s.eoe with rxebuf := { buf with payload := none } } }
  eoeInitRx

/-- `EOE_receive_fragment`. -/
def eoeReceiveFragment : OnEoe σ Unit := do
  let m := (← get).mb
  let expected := (← get).eoe.rxfragmentno
  when (expected ≠ m.eoeFragNo ∧ expected ≠ 0) eoeInitRx
  -- a fragment that is not expected is skipped unless it starts a frame
  when (expected = m.eoeFragNo ∨ m.eoeFragNo = 0) do
    if ← eoeAcceptFragment m then
      if ← eoeStoreFragment m then
        when (m.frameinfo1.getLsbD 8) (eoeDeliverFrame m)

/-! ## Sent fragments -/

/-- `EOE_init_tx`. -/
def eoeInitTx : OnEoe σ Unit := do
  eoeModify fun v => { v with txfragmentno := 0, txframesize := 0, txframeoffset := 0 }
  match (← ask).cfg.freeBuffer with
  | none => pure ()
  | some call =>
      when ((← get).eoe.txebuf.payload.isSome) <| modify fun s =>
        { s with outside := call s.outside s.eoe.txebuf, eoe := { s.eoe with txebuf := ⟨none, 0⟩ } }

/-- `EOE_init`. -/
def eoeInit : OnEoe σ Unit := do
  eoeInitTx
  eoeInitRx

/-- `EOE_send_fragment`, a frame to send; whether there is one. -/
def eoeFetchFrame : OnEoe σ Bool := do
  let cfg := (← ask).cfg
  if (← get).eoe.txebuf.payload.isSome then
    pure true
  else
    let len ← transact fun _ s =>
      let a := cfg.fetchSendBuffer s.outside s.eoe.txebuf
      (a.2.2, { s with outside := a.1, eoe := { s.eoe with txebuf := a.2.1 } })
    when (0 < len) (eoeModify fun v => { v with txframesize := (len % 2 ^ 32).toNat })
    pure (decide (0 < len))

/-- The number of bytes of the next fragment, of `left` to go. -/
def eoeFragmentSize (mbxSize left : ℕ) : ℕ :=
  if mbxSize < (left + (escEoehsize + escMbxhsize)) % 2 ^ 32 then
    -- whole blocks of 32 octets
    sub32 mbxSize (escEoehsize + escMbxhsize) / 32 * 32
  else left

/-- `frameinfo2` of the next fragment. -/
def Eoe.frameinfo2 (v : Eoe) : Word :=
  .ofNat 16 (v.txfragmentno % 64 +
    (if 0 < v.txfragmentno then v.txframeoffset / 32 else (v.txframesize + 31) % 2 ^ 32 / 32) % 64 *
      64 + v.frameno % 16 * 4096)

/-- `EOE_send_fragment`, the fragment goes to buffer `n`. -/
def eoePutFragment (n : ℕ) : OnEoe σ Unit := do
  let cfg := (← ask).cfg
  eoeModify fun v => { v with
    frameno := if 0 < v.txfragmentno then v.frameno else (v.frameno + 1) % 256 }
  let s ← get
  let v := s.eoe
  let left := sub32 v.txframesize v.txframeoffset
  let size := eoeFragmentSize s.mb.activembxsize left
  if v.txebuf.payload.isNone ∧ size ≠ 0 then
    fault .null
  else
    let payload := v.txebuf.payload.getD fun _ => 0
    eoeModifyMb fun m =>
      let m := m.putEoe n (size + escEoehsize)
        (if size = left then eoeHdrLastFragment else 0) v.frameinfo2
      (m.updateMbx fun mbx => mbx.copy (m.buffer n + Mailbox.eoeDataOffset) size payload
        v.txframeoffset).setControl n .outreq
    if size = left then
      eoeInitTx
    else
      eoeModify fun v => { v with
        txframeoffset := (v.txframeoffset + size) % 2 ^ 32
        txfragmentno := (v.txfragmentno + 1) % 256 }
    match cfg.fragmentSentEvent with
    | none => pure ()
    | some call => modify fun s => { s with outside := call s.outside }

/-- `EOE_send_fragment`. -/
def eoeSendFragment : OnEoe σ Unit := do
  if ← eoeFetchFrame then
    let n ← onEoeMb escClaimbuffer
    when (n ≠ 0) (eoePutFragment n)

/-! ## The dispatchers -/

/-- `ESC_eoeprocess`, the message in the inbox, by frame type. -/
def eoeDispatch (m : Mailbox) : OnEoe σ Unit :=
  if (m.headerLength 0).toNat < escEoehsize then
    eoeNoDataResponse (eoeInitResp ||| eoeHdrLastFragment) mbxerrSizetooshort
  else if m.frameinfo1 &&& eoeHdrFrameType = eoeFragData then eoeReceiveFragment
  else if m.frameinfo1 &&& eoeHdrFrameType = eoeInitReq then eoeSetIp
  else if m.frameinfo1 &&& eoeHdrFrameType = eoeGetIpParamReq then eoeGetIp
  else
    eoeNoDataResponse
      ((eoeHdrFramePort &&& m.frameinfo1) ||| (eoeHdrFrameType &&& m.frameinfo1) |||
        eoeHdrLastFragment) eoeResultUnsupportedFrameType

/-- `ESC_eoeprocess`. -/
def escEoeprocess : OnEoe σ Unit := do
  when (← get).mb.mbxRun do
    let m := (← get).mb
    when (m.xoe = 0 ∧ m.control 0 = .inclaim ∧ m.mbxtype 0 = mbxeoe) <|
      eoeModifyMb fun m => { m with xoe := mbxeoe }
    let m := (← get).mb
    when (m.xoe = mbxeoe) do
      eoeDispatch m
      eoeModifyMb fun m => { m.setControl 0 .idle with xoe := 0 }

/-- `ESC_eoeprocess_tx`. -/
def escEoeprocessTx : OnEoe σ Unit := do
  when (← get).mb.mbxRun eoeSendFragment

end Soes
