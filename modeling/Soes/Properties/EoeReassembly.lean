import Soes.Framework.Reassembly
import Soes.Properties.EoeTransport

/-!
# What the EoE receiver hands over

The fragments of a frame come in messages that the master numbers, sizes and orders as it likes.
`EOE_receive_fragment` compares each with four variables, and starts over at the slightest
difference.  Here it is shown to be the receiver of `Soes.Framework.Reassembly`: a frame is handed
over exactly when the fragments received so far end with all fragments of a frame, and it is their
data (`eoe_hands_over`).  Whatever else is asked of the EoE server in between plays no part.

A time stamp is cut off without a look at how much data there is: behind fewer than four bytes the
length of the frame falls below zero.  So the fragments are asked not to make such a frame.
-/

namespace Soes

open Program Mailbox Piece

variable {σ : Type} {env : EoeEnv σ} {k : ℕ} {s s' : EoeMem σ}
  {frames : σ → List (ℕ × List Byte)}

/-! ## Fragments -/

/-- A fragment of a frame, with its port and whether a time stamp is behind its data. -/
abbrev EoeFragment : Type := Piece ℕ (ℕ × Bool) Byte

/-- The data of the fragment in the inbox. -/
def Mailbox.eoeData (m : Mailbox) : List Byte := m.mbx.bytes eoeDataOffset m.eoeDataSize

/-- The fragment in the inbox. -/
def Mailbox.eoeFragment (m : Mailbox) : EoeFragment where
  key := m.eoeFrameNo
  number := m.eoeFragNo
  offset := m.eoeFrameOffset
  data := m.eoeData
  last := m.frameinfo1.getLsbD 8
  info := (m.eoePort, m.frameinfo1.getLsbD 9)

/-- The port and the time stamp of a frame, by its last fragment. -/
def frameInfo (ys : List EoeFragment) : ℕ × Bool := (ys.getLast?.map (·.info)).getD (0, false)

/-- The time stamp of a frame has its four bytes. -/
def HasStamp (ys : List EoeFragment) : Prop := (frameInfo ys).2 = true → 4 ≤ (payload ys).length

/-- The frame that fragments make: the port and the data, without a time stamp. -/
def frameOf (ys : List EoeFragment) : ℕ × List Byte :=
  ((frameInfo ys).1, (payload ys).take ((payload ys).length - if (frameInfo ys).2 then 4 else 0))

lemma frameInfo_concat (ys : List EoeFragment) (p : EoeFragment) :
    frameInfo (ys ++ [p]) = p.info := by
  rw [frameInfo, List.getLast?_concat]
  rfl

lemma Mailbox.eoeFragNo_lt (m : Mailbox) : m.eoeFragNo < 64 := by
  rw [eoeFragNo, BitVec.toNat_and]
  exact Nat.lt_of_le_of_lt Nat.and_le_right (by decide)

lemma Mailbox.eoeFrameOffset_le (m : Mailbox) : m.eoeFrameOffset ≤ 2016 := by
  have hle : ((m.frameinfo2 >>> 6) &&& 0x3F).toNat ≤ 63 := by
    rw [BitVec.toNat_and]
    exact Nat.and_le_right
  rw [eoeFrameOffset]
  omega

lemma Mailbox.eoeDataSize_lt {m : Mailbox} (h : escEoehsize ≤ (m.headerLength 0).toNat) :
    m.eoeDataSize < 2 ^ 16 := by
  have hlt := (m.headerLength 0).isLt
  rw [eoeDataSize, sub32]
  omega

lemma Mailbox.data_eoeFragment (m : Mailbox) : m.eoeFragment.data = m.eoeData := by
  unfold eoeFragment
  dsimp only

@[simp] lemma Mailbox.length_eoeFragment (m : Mailbox) :
    m.eoeFragment.data.length = m.eoeDataSize := by
  rw [data_eoeFragment, eoeData, ByteStore.length_bytes]

/-! ## The frame in progress -/

/-- The receiver has these fragments of the frame in progress. -/
structure Eoe.Has (v : Eoe) (got : List EoeFragment) : Prop where
  payload : ∃ q, v.rxebuf.payload = some q ∧ q.bytes 0 (Piece.payload got).length =
    Piece.payload got
  fragment : v.rxfragmentno = got.length
  length_le : got.length ≤ 64
  /-- The size and the number of the frame are those of the first fragment. -/
  frame : ∀ first ∈ got.head?, v.rxframesize = first.offset ∧ v.rxframeno = first.key ∧
    first.offset ≤ 2016
  offset : 0 < got.length → v.rxframeoffset = (Piece.payload got).length

/-- The application gives a new buffer whenever it is asked. -/
def RenewsBuffers (cfg : EoeCfg σ) : Prop :=
  ∃ call, cfg.getBuffer = some call ∧ ∀ o buf, (call o buf).2.payload.isSome

/-- The receiver starts over. -/
lemma eoeInitRx_starts (records : RecordsFrames env.cfg frames) (renews : RenewsBuffers env.cfg) :
    wp env k eoeInitRx (fun _ s' => s'.mb = s.mb ∧ frames s'.outside = frames s.outside ∧
      s'.eoe.Has []) s := by
  obtain ⟨call, hget, hgives⟩ := renews
  rw [eoeInitRx, wp_bind, wp_eoeModify, wp_ask_bind, hget]
  dsimp only
  rw [wp_get_bind]
  have none (q : ByteStore) (v : Eoe) (hq : v.rxebuf.payload = some q)
      (hfragment : v.rxfragmentno = 0) : v.Has [] := by
    refine ⟨⟨q, hq, rfl⟩, hfragment, Nat.zero_le _, fun first hfirst => ?_, fun hpos => ?_⟩
    · cases hfirst
    · exact absurd hpos (Nat.lt_irrefl 0)
  refine .when (fun _ => ?_) fun hsome => ?_
  · rw [wp_modify]
    obtain ⟨q, hq⟩ := Option.isSome_iff_exists.mp (hgives s.outside s.eoe.rxebuf)
    exact ⟨rfl, records.get call hget _ _, none q _ hq rfl⟩
  · rw [Option.isNone_iff_eq_none, ← ne_eq, Option.ne_none_iff_exists'] at hsome
    obtain ⟨q, hq⟩ := hsome
    exact ⟨rfl, rfl, none q _ hq rfl⟩

/-! ## One fragment -/

section fragment

variable {got : List EoeFragment} {p : EoeFragment} {m : Mailbox}

/-- The fragment `p` goes to the frame that `got` begins, or begins it. -/
structure Eoe.Accepts (v : Eoe) (got : List EoeFragment) (p : EoeFragment) : Prop where
  payload : ∃ q, v.rxebuf.payload = some q ∧ q.bytes 0 (Piece.payload got).length =
    Piece.payload got
  fragment : v.rxfragmentno = got.length
  size : v.rxframesize = (got.headD p).offset
  size_le : (got.headD p).offset ≤ 2016
  number : v.rxframeno = (got.headD p).key
  offset : v.rxframeoffset = (Piece.payload got).length
  key_eq : p.key = (got.headD p).key
  offset_eq : 0 < got.length → p.offset = (Piece.payload got).length

/-- The checks of a fragment of the number that is expected. -/
lemma eoeAcceptFragment_checks (records : RecordsFrames env.cfg frames)
    (renews : RenewsBuffers env.cfg) (hp : m.eoeFragment = p) (hgot : s.eoe.Has got) :
    wp env k (eoeAcceptFragment m) (fun accepted s' => s'.mb = s.mb ∧
      frames s'.outside = frames s.outside ∧
      ((accepted = true ∧ s'.eoe.Accepts got p) ∨
        (accepted = false ∧ s'.eoe.Has [] ∧ ¬ Fits got p))) s := by
  obtain ⟨⟨q, hq, hbytes⟩, hfragment, -, hframe, hoffset⟩ := hgot
  rw [eoeAcceptFragment, wp_get_bind]
  cases got with
  | nil =>
      have hsome : s.eoe.rxebuf.payload.isSome := by rw [hq]; rfl
      have hfirst : s.eoe.rxfragmentno = 0 := hfragment
      rw [if_pos hfirst, wp_bind, wp_eoeModify, if_pos hsome, wp_bind, wp_eoeModify, wp_pure]
      refine ⟨rfl, rfl, .inl ⟨rfl, ⟨q, hq, rfl⟩, hfragment, ?_, ?_, ?_, rfl, rfl, ?_⟩⟩
      · exact congrArg Piece.offset hp
      · exact (congrArg Piece.offset hp) ▸ m.eoeFrameOffset_le
      · exact congrArg Piece.key hp
      · exact fun hpos => absurd hpos (Nat.lt_irrefl 0)
  | cons first rest =>
      obtain ⟨hsize, hnumber, hle⟩ := hframe first rfl
      have hmore : ¬ s.eoe.rxfragmentno = 0 := by
        rw [hfragment]
        exact Nat.succ_ne_zero _
      have hat : s.eoe.rxframeoffset = (payload (first :: rest)).length :=
        hoffset (Nat.succ_pos _)
      rw [if_neg hmore]
      refine (wp_ite _ _ _ _).mpr ⟨fun hwrong => ?_, fun hright => ?_⟩
      · rw [wp_bind]
        refine (eoeInitRx_starts records renews).mono fun _ s₁ hthen => ?_
        obtain ⟨hmb, hframes, hnone⟩ := hthen
        rw [wp_pure]
        refine ⟨hmb, hframes, .inr ⟨rfl, hnone, fun hfits => ?_⟩⟩
        rcases hwrong with hwrong | hwrong
        · apply hwrong
          rw [hnumber]
          exact (hp ▸ hfits.key : m.eoeFragment.key = first.key).symm
        · apply hwrong
          rw [hat]
          exact (hp ▸ hfits.offset (Nat.succ_pos _) : m.eoeFragment.offset = _).symm
      · rw [wp_pure]
        have hkey : p.key = first.key := by
          rw [← hnumber, ← hp]
          exact (not_not.mp fun hne => hright (.inl hne)).symm
        have hplace : p.offset = (payload (first :: rest)).length := by
          rw [← hat, ← hp]
          exact (not_not.mp fun hne => hright (.inr hne)).symm
        exact ⟨rfl, rfl, .inl ⟨rfl, ⟨q, hq, hbytes⟩, hfragment, hsize, hle, hnumber, hat, hkey,
          fun _ => hplace⟩⟩

/-- The data of a fragment that was accepted. -/
lemma eoeStoreFragment_adds (records : RecordsFrames env.cfg frames)
    (renews : RenewsBuffers env.cfg) (hp : m.eoeFragment = p)
    (hlength : escEoehsize ≤ (m.headerLength 0).toNat) (hnumber : p.number = got.length)
    (hroom : (payload got).length ≤ 2016) (haccepts : s.eoe.Accepts got p) :
    wp env k (eoeStoreFragment m) (fun stored s' => s'.mb = s.mb ∧
      frames s'.outside = frames s.outside ∧
      ((stored = true ∧ s'.eoe.Has (got ++ [p]) ∧ Fits got p) ∨
        (stored = false ∧ s'.eoe.Has [] ∧ ¬ Fits got p))) s := by
  obtain ⟨⟨q, hq, hbytes⟩, hfragment, hsize, hle, hframeno, hoffset, hkey, hplace⟩ := haccepts
  have hdata := m.eoeDataSize_lt hlength
  have hplen : p.data.length = m.eoeDataSize := by rw [← hp, length_eoeFragment]
  have hsum : (s.eoe.rxframeoffset + m.eoeDataSize) % 2 ^ 32 =
      (payload got).length + p.data.length := by
    rw [hoffset, hplen]
    omega
  have hcount : p.number < 64 := by
    rw [← hp]
    exact m.eoeFragNo_lt
  rw [eoeStoreFragment, wp_get_bind]
  refine (wp_ite _ _ _ _).mpr ⟨fun hfits => ?_, fun hover => ?_⟩
  · rw [hsum, hsize] at hfits
    rw [hq]
    dsimp only
    rw [wp_bind, wp_eoeModify, wp_pure]
    refine ⟨rfl, rfl, .inl ⟨rfl, ⟨⟨_, rfl, ?_⟩, ?_, ?_, ?_, ?_⟩, hnumber, hkey, hplace, hfits⟩⟩
    · rw [payload_concat, List.length_append, ByteStore.bytes_add, hoffset, ← hplen,
        ByteStore.bytes_copy_of_outside (by omega), hbytes, Nat.zero_add, ByteStore.bytes_copy,
        hplen, ← hp, ← eoeData, data_eoeFragment]
    · change (s.eoe.rxfragmentno + 1) % 256 = _
      rw [hfragment, List.length_append, List.length_singleton]
      omega
    · rw [List.length_append, List.length_singleton]
      omega
    · intro first hfirst
      have heq : first = got.headD p := by
        cases got with
        | nil => exact (Option.some.inj hfirst).symm
        | cons q got => exact (Option.some.inj hfirst).symm
      rw [heq]
      exact ⟨hsize, hframeno, hle⟩
    · intro _
      rw [payload_concat, List.length_append]
      exact hsum
  · rw [hsum, hsize] at hover
    rw [wp_bind]
    refine (eoeInitRx_starts records renews).mono fun _ s₁ hthen => ?_
    obtain ⟨hmb, hframes, hnone⟩ := hthen
    rw [wp_pure]
    exact ⟨hmb, hframes, .inr ⟨rfl, hnone, fun hfits => hover hfits.room⟩⟩

/-- The frame is complete with its last fragment. -/
lemma eoeDeliverFrame_hands (records : RecordsFrames env.cfg frames)
    (renews : RenewsBuffers env.cfg) (hp : m.eoeFragment = p) (hhas : s.eoe.Has (got ++ [p]))
    (hstamp : HasStamp (got ++ [p])) (hroom : (payload (got ++ [p])).length ≤ 2016) :
    wp env k (eoeDeliverFrame m) (fun _ s' => s'.mb = s.mb ∧
      frames s'.outside = frameOf (got ++ [p]) :: frames s.outside ∧ s'.eoe.Has []) s := by
  obtain ⟨⟨q, hq, hbytes⟩, -, -, -, hoffset⟩ := hhas
  have hat : s.eoe.rxframeoffset = (payload (got ++ [p])).length := hoffset (by simp)
  have hinfo : frameInfo (got ++ [p]) = (m.eoePort, m.frameinfo1.getLsbD 9) := by
    rw [frameInfo_concat, ← hp]
    rfl
  rw [HasStamp, hinfo] at hstamp
  rw [frameOf, hinfo]
  generalize payload (got ++ [p]) = data at *
  have finishes (s₁ : EoeMem σ) (hmb : s₁.mb = s.mb) (hframes : s₁.outside = s.outside)
      (hpayload : s₁.eoe.rxebuf.payload = some q) (cut : ℕ)
      (hcut : s₁.eoe.rxframeoffset = data.length - cut) :
      wp env k (do
        modify fun s =>
          let buf := { s.eoe.rxebuf with len := s.eoe.rxframeoffset }
          { s with
            outside := env.cfg.handleRecvBuffer s.outside m.eoePort buf
            eoe := { s.eoe with rxebuf := { buf with payload := none } } }
        eoeInitRx) (fun _ s' => s'.mb = s.mb ∧ frames s'.outside =
          (m.eoePort, data.take (data.length - cut)) :: frames s.outside ∧ s'.eoe.Has []) s₁ := by
    rw [wp_bind, wp_modify]
    refine (eoeInitRx_starts records renews).mono fun _ s₂ hthen => ?_
    obtain ⟨hmb₂, hframes₂, hnone⟩ := hthen
    refine ⟨hmb₂.trans hmb, ?_, hnone⟩
    rw [hframes₂]
    dsimp only
    rw [hpayload, records.handle, hframes, hcut]
    congr 2
    rw [← hbytes, ByteStore.length_bytes]
    exact (ByteStore.take_bytes (Nat.sub_le _ _)).symm
  rw [eoeDeliverFrame, wp_ask_bind, wp_bind]
  refine .when (fun htime => ?_) fun htime => ?_
  · have hstamped : sub32 s.eoe.rxframeoffset 4 = data.length - 4 := by
      rw [hat, sub32]
      have := hstamp htime
      omega
    rw [wp_eoeModify, hstamped, if_pos htime]
    exact finishes { s with eoe := { s.eoe with rxframeoffset := data.length - 4 } } rfl rfl hq 4
      rfl
  · rw [if_neg htime]
    exact finishes s rfl rfl hq 0 hat

/-- `EOE_receive_fragment` takes a fragment, and hands the frame over if it is complete. -/
lemma eoeReceiveFragment_hands (records : RecordsFrames env.cfg frames)
    (renews : RenewsBuffers env.cfg) (hp : s.mb.eoeFragment = p)
    (hlength : escEoehsize ≤ (s.mb.headerLength 0).toNat) (hhas : s.eoe.Has got) (hopen : Open got)
    (hstamp : p.last = true → HasStamp (take got p)) :
    wp env k eoeReceiveFragment (fun _ s' => s'.eoe.Has (next got p) ∧
      ((p.last = true ∧ take got p ≠ [] ∧
          frames s'.outside = frameOf (take got p) :: frames s.outside) ∨
        (¬ (p.last = true ∧ take got p ≠ []) ∧ frames s'.outside = frames s.outside))) s := by
  have hexpected : s.eoe.rxfragmentno = got.length := hhas.fragment
  have hnumber : s.mb.eoeFragNo = p.number := congrArg Piece.number hp
  have hlast : s.mb.frameinfo1.getLsbD 8 = p.last := congrArg Piece.last hp
  -- what is left of the frame in progress before the fragment is checked
  obtain ⟨got₁, hgot₁⟩ : ∃ got₁, got₁ = if p.number = got.length then got else [] := ⟨_, rfl⟩
  have htake : take got p = take got₁ p := by
    rw [hgot₁]
    by_cases heq : p.number = got.length
    · rw [if_pos heq]
    · rw [if_neg heq, take_eq_of_restart heq]
  have hopen₁ : Open got₁ := by
    rw [hgot₁]
    split
    · exact hopen
    · exact .nil
  rw [eoeReceiveFragment, wp_get_bind, wp_get_bind]
  refine wp.bind (P := fun _ s₁ => s₁.mb = s.mb ∧ frames s₁.outside = frames s.outside ∧
    s₁.eoe.Has got₁) (.when (fun hrestart => ?_) fun hno => ?_) fun _ s₁ hthen => ?_
  · rw [hexpected, hnumber] at hrestart
    rw [hgot₁, if_neg fun h => hrestart.1 h.symm]
    exact eoeInitRx_starts records renews
  · rw [hexpected, hnumber] at hno
    refine ⟨rfl, rfl, ?_⟩
    rw [hgot₁]
    by_cases heq : p.number = got.length
    · rw [if_pos heq]
      exact hhas
    · have hnone : got = [] := by
        by_contra hne
        exact hno ⟨fun h => heq h.symm, fun h => hne (List.length_eq_zero_iff.mp h)⟩
      rw [if_neg heq, ← hnone]
      exact hhas
  obtain ⟨hmb₁, hframes₁, hhas₁⟩ := hthen
  rw [htake, next, htake]
  have hroom : (payload got₁).length ≤ 2016 := by
    cases hgot₁ : got₁ with
    | nil => exact Nat.zero_le _
    | cons first rest =>
        rw [hgot₁] at hopen₁ hhas₁
        exact Nat.le_trans (hopen₁.room first rfl) (hhas₁.frame first rfl).2.2
  have none (s₂ : EoeMem σ) (hframes₂ : frames s₂.outside = frames s₁.outside)
      (hhas₂ : s₂.eoe.Has []) (hnone : take got₁ p = []) :
      s₂.eoe.Has (if p.last = true then [] else take got₁ p) ∧
        ((p.last = true ∧ take got₁ p ≠ [] ∧
            frames s₂.outside = frameOf (take got₁ p) :: frames s.outside) ∨
          (¬ (p.last = true ∧ take got₁ p ≠ []) ∧ frames s₂.outside = frames s.outside)) := by
    rw [hnone, ite_self]
    exact ⟨hhas₂, .inr ⟨fun h => h.2 rfl, hframes₂.trans hframes₁⟩⟩
  by_cases hplace : s.eoe.rxfragmentno = s.mb.eoeFragNo ∨ s.mb.eoeFragNo = 0
  · have hnext : p.number = got₁.length := by
      rw [hgot₁]
      rw [hexpected, hnumber] at hplace
      by_cases heq : p.number = got.length
      · rw [if_pos heq]
        exact heq
      · rw [if_neg heq]
        exact hplace.resolve_left fun h => heq h.symm
    rw [when, if_pos hplace]
    refine (eoeAcceptFragment_checks records renews hp hhas₁).bind fun accepted s₂ hthen => ?_
    obtain ⟨hmb₂, hframes₂, ⟨rfl, haccepts⟩ | ⟨rfl, hhas₂, hnot⟩⟩ := hthen
    · rw [if_pos rfl]
      refine (eoeStoreFragment_adds records renews hp hlength hnext hroom haccepts).bind
        fun stored s₃ hthen => ?_
      obtain ⟨hmb₃, hframes₃, ⟨rfl, hhas₃, hfits⟩ | ⟨rfl, hhas₃, hnot⟩⟩ := hthen
      · have htaken : take got₁ p = got₁ ++ [p] := take_of_fits hfits
        rw [if_pos rfl, when, hlast]
        by_cases hend : p.last = true
        · rw [if_pos hend, if_pos hend]
          have hstamp₁ : HasStamp (got₁ ++ [p]) := by
            rw [← htaken, ← htake]
            exact hstamp hend
          have hroom₁ : (payload (got₁ ++ [p])).length ≤ 2016 := by
            rw [payload_concat, List.length_append]
            exact Nat.le_trans hfits.room haccepts.size_le
          refine (eoeDeliverFrame_hands records renews hp hhas₃ hstamp₁ hroom₁).mono
            fun _ s₄ hthen => ?_
          obtain ⟨-, hframes₄, hhas₄⟩ := hthen
          refine ⟨hhas₄, .inl ⟨hend, ?_, ?_⟩⟩
          · rw [htaken]
            simp
          · rw [htaken, hframes₄, hframes₃, hframes₂, hframes₁]
        · rw [if_neg hend, if_neg hend, wp_pure, htaken]
          exact ⟨hhas₃, .inr ⟨fun h => hend h.1, hframes₃.trans (hframes₂.trans hframes₁)⟩⟩
      · rw [if_neg Bool.false_ne_true, wp_pure]
        apply none s₃ (hframes₃.trans hframes₂) hhas₃
        rw [take_eq_of_number hnext, if_neg hnot]
    · rw [if_neg Bool.false_ne_true, wp_pure]
      apply none s₂ hframes₂ hhas₂
      rw [take_eq_of_number hnext, if_neg hnot]
  · rw [when, if_neg hplace, wp_pure]
    rw [hexpected, hnumber] at hplace
    have hne : p.number ≠ got.length := fun h => hplace (.inl h.symm)
    rw [if_neg hne] at hgot₁
    apply none s₁ rfl (hgot₁ ▸ hhas₁)
    rw [hgot₁]
    exact take_of_none (fun h => hplace (.inr h.number)) fun h => hplace (.inr h.number)

end fragment

/-! ## Other requests -/

/-- `ESC_eoeprocess` looks at the message in the inbox. -/
def Mailbox.eoeHandled (m : Mailbox) : Prop :=
  m.mbxRun = true ∧ (m.xoe = mbxeoe ∨ m.xoe = 0 ∧ m.control 0 = .inclaim ∧ m.mbxtype 0 = mbxeoe)

/-- A fragment of a frame stands in the inbox. -/
structure Mailbox.IsFragment (m : Mailbox) : Prop where
  handled : m.eoeHandled
  length : escEoehsize ≤ (m.headerLength 0).toNat
  type : m.frameinfo1 &&& eoeHdrFrameType = eoeFragData

/-- The functions that load and store the parameters receive no frames. -/
structure KeepsFrames (cfg : EoeCfg σ) (frames : σ → List (ℕ × List Byte)) : Prop where
  load : ∀ call, cfg.loadEthSettings = some call → ∀ o p, frames (call o p).1 = frames o
  store : ∀ call, cfg.storeEthernetSettings = some call → ∀ o p, frames (call o p).1 = frames o

instance reflSameRx : Std.Refl (SameRx (σ := σ) frames) := ⟨fun _ => ⟨rfl, rfl, rfl, rfl, rfl, rfl⟩⟩

instance transSameRx : IsTrans (EoeMem σ) (SameRx frames) where
  trans _ _ _ h h' := ⟨h'.buffer.trans h.buffer, h'.fragment.trans h.fragment,
    h'.size.trans h.size, h'.offset.trans h.offset, h'.number.trans h.number,
    h'.frames.trans h.frames⟩

lemma eoeModifyMb_keepsRx (f : Mailbox → Mailbox) :
    Keeps (SameRx (σ := σ) frames) (eoeModifyMb f) :=
  .modify fun _ => ⟨rfl, rfl, rfl, rfl, rfl, rfl⟩

lemma eoeNoDataResponse_keepsRx (frameinfo1 result : Word) :
    Keeps (SameRx (σ := σ) frames) (eoeNoDataResponse frameinfo1 result) := by
  refine .bind (.within (fun _ _ => ⟨rfl, rfl, rfl, rfl, rfl, rfl⟩) _ _) fun _ => .when ?_
  exact eoeModifyMb_keepsRx _

lemma eoeGetIp_keepsRx (keeps : KeepsFrames env.cfg frames) :
    KeepsAt env (SameRx frames) eoeGetIp := by
  intro k s
  rw [eoeGetIp, wlp_ask_bind, wlp_bind, wlp_get]
  refine (wlp_ite _ _ _ _).mpr ⟨fun _ => eoeNoDataResponse_keepsRx _ _ env k s, fun _ => ?_⟩
  have hclaim : Keeps (SameRx frames) (onEoeMb (σ := σ) escClaimbuffer) :=
    .within (fun _ _ => ⟨rfl, rfl, rfl, rfl, rfl, rfl⟩) _ _
  cases hload : env.cfg.loadEthSettings
  case' some call =>
    rw [wlp_bind, wlp_modify]
    have hload : SameRx frames s { s with
        outside := (call s.outside s.eoe.nicPort).1
        eoe := { s.eoe with nicPort := (call s.outside s.eoe.nicPort).2 } } :=
      ⟨rfl, rfl, rfl, rfl, rfl, keeps.load call hload _ _⟩
    refine wlp.mono ?_ fun _ s₁ hsame => IsTrans.trans _ _ _ hload hsame
  all_goals
    refine (hclaim env k _).bind fun n s₁ hsame => ?_
    refine wlp.when (fun _ => ?_) fun _ => hsame
    rw [wlp_bind, wlp_get, eoeModifyMb, wlp_modify]
    exact ⟨hsame.buffer, hsame.fragment, hsame.size, hsame.offset, hsame.number, hsame.frames⟩

lemma eoeSetIp_keepsRx (keeps : KeepsFrames env.cfg frames) :
    KeepsAt env (SameRx frames) eoeSetIp := by
  intro k s
  rw [eoeSetIp, wlp_ask_bind, wlp_bind, wlp_get, wlp_ite]
  refine ⟨fun _ => eoeNoDataResponse_keepsRx _ _ env k s, fun _ => ?_⟩
  generalize takeAllParams s.mb.mbx Mailbox.eoeDataOffset s.mb.eoeDataSize
    (s.mb.mbx Mailbox.eoeDataOffset) s.eoe.nicPort = taken
  obtain ⟨p, off⟩ := taken
  have hport (s' : EoeMem σ) (p : EoeParam) :
      SameRx frames s' { s' with eoe := { s'.eoe with nicPort := p } } :=
    ⟨rfl, rfl, rfl, rfl, rfl, rfl⟩
  rw [wlp_bind, eoeModify, wlp_modify]
  refine wlp.bind (P := fun _ s₁ => SameRx frames s s₁) ?_ fun result s₁ hsame => ?_
  · rw [wlp_ite]
    refine ⟨fun _ => (wlp_pure _ _).mpr (hport s p), fun _ => ?_⟩
    cases hstore : env.cfg.storeEthernetSettings with
    | none => exact (wlp_pure _ _).mpr (hport s p)
    | some call =>
        refine (wlp_transact _ _).mpr ?_
        exact ⟨rfl, rfl, rfl, rfl, rfl, keeps.store call hstore _ _⟩
  · exact (eoeNoDataResponse_keepsRx _ _ env k s₁).mono fun _ s₂ hsame₂ =>
      IsTrans.trans _ _ _ hsame hsame₂

lemma eoeDispatch_keepsRx (keeps : KeepsFrames env.cfg frames) {m : Mailbox}
    (hother : ¬ (escEoehsize ≤ (m.headerLength 0).toNat ∧
      m.frameinfo1 &&& eoeHdrFrameType = eoeFragData)) :
    KeepsAt env (SameRx frames) (eoeDispatch m) := by
  rw [eoeDispatch]
  by_cases hshort : (m.headerLength 0).toNat < escEoehsize
  · rw [if_pos hshort]
    exact eoeNoDataResponse_keepsRx _ _ env
  · rw [if_neg hshort, if_neg fun h => hother ⟨Nat.le_of_not_lt hshort, h⟩]
    exact .ite (eoeSetIp_keepsRx keeps) (.ite (eoeGetIp_keepsRx keeps)
      (eoeNoDataResponse_keepsRx _ _ env))

/-- `ESC_eoeprocess` on anything but a fragment leaves the frame in progress. -/
lemma escEoeprocess_other (keeps : KeepsFrames env.cfg frames) (hother : ¬ s.mb.IsFragment) :
    wlp env k escEoeprocess (fun _ s' => SameRx frames s s') s := by
  rw [escEoeprocess, wlp_get_bind]
  refine .when (fun hrun => ?_) fun _ => Std.Refl.refl s
  rw [wlp_get_bind]
  refine wlp.bind (P := fun _ s₁ => SameRx frames s s₁ ∧ (s₁.mb.xoe = mbxeoe → s.mb.eoeHandled ∧
      s₁.mb = { s.mb with xoe := mbxeoe })) (.when (fun hclaim => ?_) fun _ => ?_) fun _ s₁ h₁ => ?_
  · rw [eoeModifyMb, wlp_modify]
    exact ⟨⟨rfl, rfl, rfl, rfl, rfl, rfl⟩, fun _ => ⟨⟨hrun, .inr hclaim⟩, rfl⟩⟩
  · refine ⟨Std.Refl.refl s, fun hxoe => ⟨⟨hrun, .inl hxoe⟩, ?_⟩⟩
    rw [← hxoe]
  obtain ⟨hsame, hhandled⟩ := h₁
  rw [wlp_get_bind]
  refine .when (fun hxoe => ?_) fun _ => hsame
  obtain ⟨hhandled, hmb⟩ := hhandled hxoe
  rw [hmb]
  have hdispatch : KeepsAt env (SameRx frames) (eoeDispatch { s.mb with xoe := mbxeoe }) :=
    eoeDispatch_keepsRx keeps fun h => hother ⟨hhandled, h.1, h.2⟩
  refine (hdispatch k s₁).bind fun _ s₂ h₂ => ?_
  rw [eoeModifyMb, wlp_modify]
  have hrelease : SameRx frames s₂
      { s₂ with mb := { s₂.mb.setControl 0 .idle with xoe := 0 } } :=
    ⟨rfl, rfl, rfl, rfl, rfl, rfl⟩
  exact IsTrans.trans _ _ _ hsame (IsTrans.trans _ _ _ h₂ hrelease)

/-- `ESC_eoeprocess` on a fragment. -/
lemma escEoeprocess_fragment (records : RecordsFrames env.cfg frames)
    (renews : RenewsBuffers env.cfg) (hm : s.mb.IsFragment) {got : List EoeFragment}
    (hhas : s.eoe.Has got) (hopen : Open got)
    (hstamp : s.mb.eoeFragment.last = true → HasStamp (take got s.mb.eoeFragment)) :
    wp env k escEoeprocess (fun _ s' => s'.eoe.Has (next got s.mb.eoeFragment) ∧
      ((s.mb.eoeFragment.last = true ∧ take got s.mb.eoeFragment ≠ [] ∧
          frames s'.outside = frameOf (take got s.mb.eoeFragment) :: frames s.outside) ∨
        (¬ (s.mb.eoeFragment.last = true ∧ take got s.mb.eoeFragment ≠ []) ∧
          frames s'.outside = frames s.outside))) s := by
  rw [escEoeprocess, wp_get_bind]
  refine .when (fun _ => ?_) fun hno => (hno hm.handled.1).elim
  rw [wp_get_bind]
  refine wp.bind (P := fun _ s₁ => s₁ = { s with mb := { s.mb with xoe := mbxeoe } })
    (.when (fun _ => (wp_eoeModifyMb _ _).mpr rfl) fun hnot => ?_) fun _ s₁ hs₁ => ?_
  · rcases hm.handled.2 with hxoe | hclaim
    · rw [← hxoe]
    · exact (hnot hclaim).elim
  rw [wp_get_bind, hs₁]
  refine .when (fun _ => ?_) fun hno => (hno rfl).elim
  have hreceive : wp env k eoeReceiveFragment _
      { s with mb := { s.mb with xoe := mbxeoe } } :=
    eoeReceiveFragment_hands (p := s.mb.eoeFragment) records renews rfl hm.length hhas hopen hstamp
  have hdispatch : eoeDispatch (σ := σ) { s.mb with xoe := mbxeoe } = eoeReceiveFragment := by
    rw [eoeDispatch]
    exact (if_neg (Nat.not_lt.mpr hm.length)).trans (if_pos hm.type)
  rw [wp_bind, hdispatch]
  refine hreceive.mono fun _ s₂ h₂ => ?_
  rw [wp_eoeModifyMb]
  exact h₂

/-! ## Runs -/

/-- The EoE server is asked for this and that: after any number of calls of `ESC_eoeprocess`, with
whatever in the inbox, these are the fragments that have come.  A fragment lies in the inbox as a
whole: `ESC_mbxprocess` drops a message that says it is longer (`mbxReceive_fits`), and
`EOE_receive_fragment` relies on it. -/
inductive EoeReceives (env : EoeEnv σ) (frames : σ → List (ℕ × List Byte)) (r : EoeMem σ) :
    List EoeFragment → EoeMem σ → Prop where
  /-- None yet. -/
  | start : EoeReceives env frames r [] r
  /-- A fragment. -/
  | fragment {r₀ s s' : EoeMem σ} {xs : List EoeFragment} (run : EoeReceives env frames r xs r₀)
      (same : SameRx frames r₀ s) (isFragment : s.mb.IsFragment)
      (inside : escMbxhsize + (s.mb.headerLength 0).toNat ≤ s.mb.activembxsize)
      (pass : ∃ k, escEoeprocess env k s = .ok () s') :
      EoeReceives env frames r (xs ++ [s.mb.eoeFragment]) s'
  /-- Another request, or none. -/
  | other {r₀ s s' : EoeMem σ} {xs : List EoeFragment} (run : EoeReceives env frames r xs r₀)
      (same : SameRx frames r₀ s) (isOther : ¬ s.mb.IsFragment)
      (pass : ∃ k, escEoeprocess env k s = .ok () s') : EoeReceives env frames r xs s'

lemma Eoe.Has.of_same {r₀ : EoeMem σ} {got : List EoeFragment} (h : r₀.eoe.Has got)
    (same : SameRx frames r₀ s) : s.eoe.Has got := by
  obtain ⟨hpayload, hfragment, hlength, hframe, hoffset⟩ := h
  refine ⟨same.buffer ▸ hpayload, same.fragment ▸ hfragment, hlength, ?_, same.offset ▸ hoffset⟩
  rw [same.size, same.number]
  exact hframe

lemma Eoe.RxReady.has {v : Eoe} (h : v.RxReady) : v.Has [] := by
  obtain ⟨q, hq⟩ := Option.isSome_iff_exists.mp h.payload
  refine ⟨⟨q, hq, rfl⟩, h.fragment, Nat.zero_le _, ?_, ?_⟩
  · intro first hfirst
    cases hfirst
  · exact fun hpos => absurd hpos (Nat.lt_irrefl 0)

/-- What the receiver has put together, once these fragments have come. -/
lemma EoeReceives.completes {r : EoeMem σ} {xs : List EoeFragment}
    (records : RecordsFrames env.cfg frames) (renews : RenewsBuffers env.cfg)
    (keeps : KeepsFrames env.cfg frames) (hready : r.eoe.RxReady)
    (hstamps : ∀ ys, ys <:+: xs → Whole ys → HasStamp ys) (run : EoeReceives env frames r xs s) :
    ∃ got ws, Piece.Collects xs got ∧ s.eoe.Has got ∧ Completes xs ws ∧
      frames s.outside = ws.map frameOf ++ frames r.outside := by
  induction run with
  | start =>
      exact ⟨[], [], .nil, hready.has, .none, rfl⟩
  | @other r₀ s s' xs run same isOther pass ih =>
      obtain ⟨got, ws, hcollects, hhas, hcompletes, hframes⟩ := ih hstamps
      obtain ⟨k, hrun⟩ := pass
      have hsame := escEoeprocess_other (k := k) keeps isOther _ s' hrun
      refine ⟨got, ws, hcollects, (hhas.of_same same).of_same hsame, hcompletes, ?_⟩
      rw [hsame.frames, same.frames, hframes]
  | @fragment r₀ s s' xs run same isFragment _ pass ih =>
      obtain ⟨got, ws, hcollects, hhas, hcompletes, hframes⟩ := ih fun ys hys =>
        hstamps ys (hys.trans (List.prefix_append _ _).isInfix)
      obtain ⟨k, hrun⟩ := pass
      have hstamp : s.mb.eoeFragment.last = true → HasStamp (take got s.mb.eoeFragment) := by
        intro hlast
        by_cases hnone : take got s.mb.eoeFragment = []
        · rw [hnone]
          exact fun h => by cases h
        · obtain ⟨hsuffix, hwhole⟩ := hcollects.whole_iff.mpr ⟨hlast, hnone, rfl⟩
          exact hstamps _ hsuffix.isInfix hwhole
      obtain ⟨hhas', hends⟩ := (escEoeprocess_fragment (k := k) records renews isFragment
        (hhas.of_same same) hcollects.isOpen hstamp).wlp _ s' hrun
      rcases hends with ⟨hlast, hsome, hframes'⟩ | ⟨hnot, hframes'⟩
      · obtain ⟨hsuffix, hwhole⟩ := hcollects.whole_iff.mpr ⟨hlast, hsome, rfl⟩
        refine ⟨_, _, hcollects.next _, hhas', hcompletes.whole hsuffix hwhole, ?_⟩
        rw [hframes', same.frames, hframes]
        rfl
      · refine ⟨_, ws, hcollects.next _, hhas', hcompletes.more fun ys hsuffix hwhole => ?_, ?_⟩
        · obtain ⟨hlast, hsome, -⟩ := hcollects.whole_iff.mp ⟨hsuffix, hwhole⟩
          exact hnot ⟨hlast, hsome⟩
        · rw [hframes', same.frames, hframes]

/-- **The frames that the receiver hands over are the whole frames that it was sent**, whatever the
fragments and whatever else it is asked: each time the fragments received so far end with all
fragments of a frame, from number 0 to the last, of one frame number and each at the end of the data
before it, the frame is handed over, once, with their data; and nothing else is ever handed over.
The data fits the size that the first fragment announced. -/
theorem eoe_hands_over {r : EoeMem σ} {xs : List EoeFragment}
    (records : RecordsFrames env.cfg frames) (renews : RenewsBuffers env.cfg)
    (keeps : KeepsFrames env.cfg frames) (hready : r.eoe.RxReady)
    (hstamps : ∀ ys, ys <:+: xs → Whole ys → HasStamp ys) (run : EoeReceives env frames r xs s) :
    ∃ ws, Completes xs ws ∧ frames s.outside = ws.map frameOf ++ frames r.outside ∧
      ∀ ys ∈ ws, ∀ first ∈ ys.head?, (payload ys).length ≤ first.offset := by
  obtain ⟨got, ws, -, -, hcompletes, hframes⟩ := run.completes records renews keeps hready hstamps
  exact ⟨ws, hcompletes, hframes, fun ys hys => (hcompletes.whole_of_mem hys).room⟩

/-- A frame of four bytes in one fragment. -/
def greeting : Mailbox :=
  exampleMailbox [8, 0, 0, 0, 0, mbxeoe, 0, 1, 0x40, 0, 1, 2, 3, 4]

lemma greeting_isFragment : greeting.IsFragment :=
  ⟨⟨rfl, .inr ⟨rfl, rfl, rfl⟩⟩, by decide +kernel, by decide +kernel⟩

lemma greeting_fits : Fits [] greeting.eoeFragment :=
  ⟨by decide +kernel, rfl, fun h => absurd h (Nat.lt_irrefl 0), by decide +kernel⟩

lemma greeting_whole : Whole [greeting.eoeFragment] :=
  ⟨[], _, rfl, .nil, greeting_fits, by decide +kernel⟩

lemma greeting_stamps : ∀ ys, ys <:+: [greeting.eoeFragment] → Whole ys → HasStamp ys := by
  intro ys hys hwhole
  rcases List.sublist_singleton.mp hys.sublist with rfl | rfl
  · exact fun h => by cases h
  · exact fun h => absurd h (by decide +kernel)

/-- The receiver gets it as the first one. -/
def greetingMem : EoeMem (List (ℕ × List Byte)) := { ethernetMem with mb := greeting }

/-- It is handed over. -/
theorem eoe_hands_over_example : ∃ s,
    EoeReceives (ethernetEnv (fun _ => 0) true) id ethernetMem [greeting.eoeFragment] s ∧
      (0, [1, 2, 3, 4]) ∈ s.outside := by
  have renews : RenewsBuffers (ethernetCfg (fun _ => 0) true) := ⟨_, rfl, fun _ _ => rfl⟩
  have keeps : KeepsFrames (ethernetCfg (fun _ => 0) true) id := by
    constructor <;> intro call hcall <;> cases hcall
  have hready : ethernetMem.eoe.RxReady := ⟨rfl, rfl⟩
  have hmb : greetingMem.mb = greeting := rfl
  have hstamp : greetingMem.mb.eoeFragment.last = true →
      HasStamp (take [] greetingMem.mb.eoeFragment) := by
    intro _
    rw [hmb, take_of_fits greeting_fits]
    exact greeting_stamps _ List.infix_rfl greeting_whole
  have hpass : wp (ethernetEnv (fun _ => 0) true) 0 escEoeprocess _ greetingMem :=
    @escEoeprocess_fragment _ _ _ _ id ethernetCfg_records renews greeting_isFragment _ hready.has
      .nil hstamp
  obtain ⟨_, s, hrun, -⟩ := hpass
  have run : EoeReceives (ethernetEnv (fun _ => 0) true) id ethernetMem
      ([] ++ [greetingMem.mb.eoeFragment]) s :=
    .fragment .start ⟨rfl, rfl, rfl, rfl, rfl, rfl⟩ greeting_isFragment (by decide +kernel)
      ⟨0, hrun⟩
  rw [hmb, List.nil_append] at run
  obtain ⟨ws, hcompletes, hframes, -⟩ := eoe_hands_over ethernetCfg_records renews keeps hready
    greeting_stamps run
  refine ⟨s, run, ?_⟩
  change s.outside = ws.map frameOf ++ [] at hframes
  rw [hframes, List.append_nil]
  have hmem := hcompletes.mem_of_whole List.suffix_rfl greeting_whole
  have hframe : frameOf [greeting.eoeFragment] = (0, [1, 2, 3, 4]) := by decide +kernel
  exact hframe ▸ List.mem_map_of_mem hmem

end Soes
