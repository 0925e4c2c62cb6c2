import Soes.Properties.SdoFinishes
import Soes.Stack.RegisterFile

/-!
# The CoE inbox is released

`ESC_mbxprocess` reads the next request only when the inbox is idle and no transfer is in
progress, so a CoE message that is taken from the inbox and not given back is the last one.  One
pass of `ESC_coeprocess` gives it back exactly under `InboxOk` (`inbox_released_iff`): the tables
are not left, and an SDO command is one that `ESC_coeprocess` knows.  An SDO command that is none
of these, and the abort by which a master ends a transfer is one, falls through every branch.
-/

namespace Soes

open Program

variable {σ : Type} {sys : System σ} {env : CoeEnv σ} {k : ℕ} {c : Coe σ} {w : World σ} {α : Type}

/-! ## SDO Information -/

lemma sdoInfoerror_frees (hidle : c.mb.ReplyIdle env.sys.opts) (abortcode : Dword) :
    wp env k (sdoInfoerror abortcode) (fun _ c' => c'.mb.Free) c := by
  rw [sdoInfoerror]
  refine wp_claim hidle fun n hn => ?_
  rw [when, if_pos hn]
  exact EndsIn.bind (coeModifyMb_finishes _) (fun _ => .bind (coeModifyMb_finishes _) fun _ =>
    release_frees) k _

lemma postAndRelease_frees (n : ℕ) : Frees env (postAndRelease (σ := σ) n) :=
  .bind (coeModifyMb_finishes _) fun _ => release_frees

lemma coePutName_finishes (n header dst : ℕ) (name : List Byte) :
    Finishes env (coePutName (σ := σ) n header dst name) := coeModifyMb_finishes _

/-- The object that a request for a description addresses is described from its table. -/
def Mailbox.ObjectInside (m : Mailbox) (table : List Objectlist) : Prop :=
  ∀ o, Finds table m.infoIndex o → ∃ r, describeObject o = .ok r

lemma sdoGetod_frees (hidle : c.mb.ReplyIdle env.sys.opts)
    (h : c.mb.ObjectInside env.sys.dict.table) :
    wp env k sdoGetod (fun _ c' => c'.mb.Free) c := by
  obtain ⟨r, hr⟩ := sdoFindobject_isOk env.sys.dict c.mb.infoIndex
  rw [sdoGetod, wp_bind, wp_coeMb, wp_bind, wp_coeTable, wp_bind, wp_lift]
  refine ⟨r, hr, ?_⟩
  cases r with
  | none => exact sdoInfoerror_frees hidle _
  | some nidx =>
      obtain ⟨o, ho⟩ := objectAt_isOk hr
      obtain ⟨d, hd⟩ := h o ⟨nidx, hr, ho⟩
      refine wp_claim hidle fun n hn => ?_
      rw [when, if_pos hn]
      refine EndsIn.lift_bind (Q := fun c : Coe σ => c.mb.Free) ho ?_ k _
      refine .lift_bind hd ?_
      exact .bind (coeModifyMb_finishes _) fun _ => .bind (coePutName_finishes _ _ _ _) fun _ =>
        postAndRelease_frees n

lemma sdoGetod_faults (hidle : c.mb.ReplyIdle env.sys.opts)
    (h : ¬ c.mb.ObjectInside env.sys.dict.table) :
    wlp env k sdoGetod (fun _ _ => False) c := by
  rw [Mailbox.ObjectInside, not_forall] at h
  obtain ⟨o, h⟩ := h
  rw [Classical.not_imp] at h
  obtain ⟨⟨nidx, hfind, ho⟩, h⟩ := h
  rw [sdoGetod, wlp_bind, wlp_coeMb, wlp_bind, wlp_coeTable, wlp_bind, wlp_lift]
  intro found hfound
  rw [hfind, Except.ok.injEq] at hfound
  subst hfound
  refine wlp_claim hidle fun n hn => ?_
  rw [when, if_pos hn, wlp_bind, wlp_lift]
  intro o' ho'
  rw [ho, Except.ok.injEq] at ho'
  subst ho'
  exact wlp_lift_false h

lemma sdoGeted_frees (hidle : c.mb.ReplyIdle env.sys.opts)
    (h : ∃ r, lookupEntry env.sys.dict.table c.mb.infoIndex c.mb.infoSubindex = .ok r) :
    wp env k sdoGeted (fun _ c' => c'.mb.Free) c := by
  obtain ⟨r, hr⟩ := h
  rw [sdoGeted, wp_bind, wp_coeMb, wp_bind, wp_coeTable, wp_bind, wp_lift]
  refine ⟨r, hr, ?_⟩
  cases r with
  | error abort => exact sdoInfoerror_frees hidle _
  | ok d =>
      refine wp_claim hidle fun n hn => ?_
      rw [when, if_pos hn]
      exact EndsIn.bind (coeModifyMb_finishes _) (fun _ =>
        .bind (coePutName_finishes _ _ _ _) fun _ => postAndRelease_frees n) k _

lemma sdoGeted_faults
    (h : ¬ ∃ r, lookupEntry env.sys.dict.table c.mb.infoIndex c.mb.infoSubindex = .ok r) :
    wlp env k sdoGeted (fun _ _ => False) c := by
  rw [sdoGeted, wlp_bind, wlp_coeMb, wlp_bind, wlp_coeTable]
  exact wlp_lift_false h

/-! ## The list of objects -/

/-- The scan for the sentinel ends, with a 16-bit count of rows before it. -/
lemma countObjects_isOk (objects : List Objectlist) :
    ∃ n, countObjects (objects ++ [sentinel]) = .ok n ∧ n ≤ objects.length ∧ n < 2 ^ 16 := by
  induction objects with
  | nil => exact ⟨0, rfl, Nat.le_refl _, by omega⟩
  | cons o rest ih =>
      obtain ⟨n, hn, hle, hlt⟩ := ih
      rw [List.cons_append, countObjects]
      split
      · exact ⟨0, rfl, Nat.zero_le _, by omega⟩
      · refine ⟨(n + 1) % 2 ^ 16, by rw [hn]; rfl, ?_, Nat.mod_lt _ (by decide)⟩
        rw [List.length_cons]
        omega

lemma putIndexes_isOk {table : List Objectlist} {count i : ℕ} (h : i + count ≤ table.length)
    (dst : ℕ) (mbx : ByteStore) : ∃ r, putIndexes table count i dst mbx = .ok r := by
  induction count generalizing i dst mbx with
  | zero => exact ⟨mbx, rfl⟩
  | succ count ih =>
      obtain ⟨r, hr⟩ := ih (i := i + 1) (by omega) (dst + 2) (mbx.setWord dst (table[i].index))
      exact ⟨r, except_bind_eq_ok.mpr
        ⟨table[i], objectAt_eq_ok.mpr (List.getElem?_eq_getElem (by omega)), hr⟩⟩

/-- The inbox is given back, or a list of objects is being sent. -/
def Mailbox.Released (m : Mailbox) : Prop := m.Free ∨ m.xoe = mbxcoe + mbxodl

/-- A list in more than one part has more indexes than the first part takes. -/
lemma getodlist_count_le {entries size : ℕ} (hentries : entries < 2 ^ 16) (hsize : size < 2 ^ 16)
    (h : 1 < sub32 (2 * entries + size) 1 / size) : size / 2 ≤ entries := by
  have hpos : 0 < size := by
    rcases Nat.eq_zero_or_pos size with rfl | hpos
    · simp at h
    · exact hpos
  have hsub : sub32 (2 * entries + size) 1 = 2 * entries + size - 1 := by
    simp only [sub32]
    omega
  rw [hsub, Nat.lt_div_iff_mul_lt hpos] at h
  omega

lemma coePutIndexes_ends {n count i dst : ℕ} (h : i + count ≤ env.sys.dict.table.length) :
    wp env k (coePutIndexes n count i dst)
      (fun _ c' => c'.mb.xoe = c.mb.xoe ∧ c'.mb.control = c.mb.control) c := by
  obtain ⟨mbx, hmbx⟩ := putIndexes_isOk h (c.mb.buffer n + dst) c.mb.mbx
  rw [coePutIndexes, wp_bind, wp_coeMb, wp_bind, wp_coeTable, wp_bind, wp_lift]
  exact ⟨mbx, hmbx, (wp_coeModifyMb _ _).mpr ⟨rfl, rfl⟩⟩

/-- Nothing written to the reply in a claimed buffer touches the inbox. -/
lemma Mailbox.setControl_released {m m' : Mailbox} {n : ℕ} (hn : n ≠ 0) (s : MbxState)
    (h : m.Released) (hxoe : m'.xoe = m.xoe) (hcontrol : m'.control = m.control) :
    (m'.setControl n s).Released := by
  refine h.imp (fun hfree => ⟨?_, hxoe.trans hfree.2⟩) fun hlist => hxoe.trans hlist
  change (if 0 = n then s else m'.control 0) = .idle
  rw [if_neg (Ne.symm hn), hcontrol]
  exact hfree.1

lemma getodlistCount_released {n : ℕ} (hn : n ≠ 0) (entries frags : ℕ) :
    wp env k (getodlistCount n entries frags)
      (fun _ c' => (c'.mb.setControl n .outreq).Released) c := by
  simp only [getodlistCount, wp_bind, wp_coeModifyMb]
  exact Mailbox.setControl_released hn _ (m := c.mb.release) (.inl ⟨rfl, rfl⟩) rfl rfl

/-- The part of the list that starts with the reply in buffer `n`. -/
lemma getodlistPart_released {n count : ℕ} (hn : n ≠ 0)
    (hcount : count ≤ env.sys.dict.objects.length) (f g : Mailbox → Mailbox)
    (hf : ∀ m, (f m).xoe = m.xoe ∧ (f m).control = m.control)
    (hg : ∀ m, (g m).xoe = m.xoe ∧ (g m).control = m.control) (h : c.mb.Released) :
    wp env k (do
      coeModifyMb f
      coePutIndexes n count 0 14
      coeModifyMb g) (fun _ c' => (c'.mb.setControl n .outreq).Released) c := by
  have hroom : 0 + count ≤ env.sys.dict.table.length := by
    rw [Dictionary.table, List.length_append]
    omega
  rw [wp_bind, wp_coeModifyMb]
  refine (coePutIndexes_ends hroom).bind fun _ c₁ h₁ => ?_
  rw [wp_coeModifyMb]
  exact Mailbox.setControl_released hn _ h ((hg _).1.trans (h₁.1.trans (hf _).1))
    ((hg _).2.trans (h₁.2.trans (hf _).2))

lemma getodlistAll_released {n : ℕ} (hn : n ≠ 0) {entries frags : ℕ}
    (hentries : entries ≤ env.sys.dict.objects.length)
    (hcount : 1 < frags → c.mb.odlistsize / 2 ≤ entries) :
    wp env k (getodlistAll n entries frags)
      (fun _ c' => (c'.mb.setControl n .outreq).Released) c := by
  rw [getodlistAll, wp_bind, wp_coeMb, wp_bind, wp_coeModifyMb, wp_bind, wp_ite]
  refine ⟨fun hmore => ?_, fun _ => ?_⟩
  · rw [wp_bind, wp_coeModifyMb, wp_pure]
    exact getodlistPart_released hn (Nat.le_trans (hcount hmore) hentries) _ _
      (fun _ => ⟨rfl, rfl⟩) (fun _ => ⟨rfl, rfl⟩) (.inr rfl)
  · rw [wp_bind, wp_coeModifyMb, wp_pure]
    exact getodlistPart_released hn hentries _ _ (fun _ => ⟨rfl, rfl⟩) (fun _ => ⟨rfl, rfl⟩)
      (.inl ⟨rfl, rfl⟩)

lemma Mailbox.odlistsize_entries (m : Mailbox) (entries : ℕ) :
    ({ m with entries := entries } : Mailbox).odlistsize = m.odlistsize := by
  simp only [Mailbox.odlistsize]

lemma Mailbox.odlistsize_lt (m : Mailbox) : m.odlistsize < 2 ^ 16 := by
  simp only [Mailbox.odlistsize]
  omega

lemma sdoGetodlist_released (hidle : c.mb.ReplyIdle env.sys.opts) (h : c.mb.odlistsize ≠ 0) :
    wp env k sdoGetodlist (fun _ c' => c'.mb.Released) c := by
  obtain ⟨entries, hentries, hle, hlt⟩ := countObjects_isOk env.sys.dict.objects
  rw [sdoGetodlist, wp_bind, wp_coeTable, wp_bind, wp_lift]
  refine ⟨entries, hentries, ?_⟩
  rw [wp_bind, wp_coeModifyMb, wp_bind, wp_coeMb]
  refine (wp_ite _ _ _ _).mpr ⟨fun hzero => ?_, fun _ => ?_⟩
  · rw [Mailbox.odlistsize_entries] at hzero
    exact (h hzero).elim
  have hcount := getodlist_count_le hlt c.mb.odlistsize_lt
  have refused := sdoInfoerror_frees (k := k)
    (c := { c with mb := { c.mb with entries := entries } }) hidle abortUnsupported
  refine (wp_ite _ _ _ _).mpr ⟨fun _ => refused.mono fun _ _ => .inl, fun _ => ?_⟩
  refine wp_claim hidle fun n hn => ?_
  rw [when, if_pos hn, Mailbox.odlistsize_entries]
  have hclaim : Mailbox.odlistsize (Mailbox.claim { c.mb with entries := entries } n) =
      c.mb.odlistsize := by
    simp only [Mailbox.odlistsize, Mailbox.claim, Mailbox.setControl]
  rw [wp_ite]
  refine ⟨fun _ => ?_, fun _ => ?_⟩
  · rw [wp_bind]
    exact (getodlistCount_released hn _ _).mono fun _ _ h => (wp_coeModifyMb _ _).mpr h
  · rw [wp_bind]
    refine (getodlistAll_released hn hle ?_).mono fun _ _ h => (wp_coeModifyMb _ _).mpr h
    rw [hclaim]
    exact hcount

lemma sdoGetodlist_faults (h : ¬ c.mb.odlistsize ≠ 0) :
    wlp env k sdoGetodlist (fun _ _ => False) c := by
  rw [sdoGetodlist, wlp_bind, wlp_coeTable, wlp_bind, wlp_lift]
  intro entries _
  rw [wlp_bind, coeModifyMb, wlp_modify, wlp_bind, wlp_coeMb]
  refine (wlp_ite _ _ _ _).mpr ⟨fun _ => wlp_fault _ _, fun hne => ?_⟩
  rw [Mailbox.odlistsize_entries] at hne
  exact (h hne).elim

/-! ## The dispatcher -/

/-- An SDO request, no reply being held back, is one that `ESC_coeprocess` knows, and its function
stays inside the tables and the storage. -/
def Mailbox.RequestOk (m : Mailbox) (table : List Objectlist) (alStatus : Word) : Prop :=
  if m.sdoCommand &&& 0xe0 = coeCommandUploadrequest ∧
      m.headerLength 0 = .ofNat 16 coeHeadersize then
    m.InitiateInside table
  else if m.sdoCommand &&& 0xef = coeCommandUploadsegreq ∧
      m.headerLength 0 = .ofNat 16 coeHeadersize ∧ m.segmented = mbxseu then
    m.data ≠ 0 ∨ m.uploadSegmentSize = 0
  else if m.sdoCommand &&& 0xe0 = coeCommandDownloadrequest then
    m.DownloadInside table alStatus
  else if m.sdoCommand &&& 0xe0 = coeCommandDownloadsegreq then
    m.SegmentInside table
  else
    False

/-- The condition under which a CoE message is handled to the end in the AL state of `alStatus`. -/
def Mailbox.InboxOk (m : Mailbox) (table : List Objectlist) (alStatus : Word) : Prop :=
  if m.service = coeSdorequest ∧ m.sdoHeld.active then True
  else if m.service = coeSdorequest then m.RequestOk table alStatus
  else if m.service = coeSdoinformation ∧ m.infoOpcode = 0x01 then m.odlistsize ≠ 0
  else if m.service = coeSdoinformation ∧ m.infoOpcode = 0x03 then m.ObjectInside table
  else if m.service = coeSdoinformation ∧ m.infoOpcode = 0x05 then
    ∃ r, lookupEntry table m.infoIndex m.infoSubindex = .ok r
  else True

lemma initiate_frees {m m' : OnCoe σ Unit} {p q : Prop}
    (hcomplete : p → wp env k m (fun _ c' => c'.mb.Free) c)
    (hsingle : q → wp env k m' (fun _ c' => c'.mb.Free) c) {complete : Prop} [Decidable complete]
    (h : if complete then p else q) :
    wp env k (if complete then m else m') (fun _ c' => c'.mb.Free) c := by
  split at h
  case isTrue hc => rw [if_pos hc]; exact hcomplete h
  case isFalse hc => rw [if_neg hc]; exact hsingle h

lemma sdoRequest_frees (hidle : c.mb.ReplyIdle env.sys.opts)
    (hroom : escMbxhsize < c.mb.activembxsize)
    (h : c.mb.RequestOk env.sys.dict.table env.alStatus) :
    wp env k (sdoRequest c.mb) (fun _ c' => c'.mb.Free) c := by
  rw [Mailbox.RequestOk] at h
  rw [sdoRequest]
  split at h
  case isTrue hup =>
    rw [if_pos hup]
    exact initiate_frees sdoUploadCompleteAccess_frees sdoUpload_frees h
  case isFalse hup =>
    rw [if_neg hup]
    split at h
    case isTrue hseg =>
      rw [if_pos hseg]
      exact sdoUploadsegment_frees hidle h
    case isFalse hseg =>
      rw [if_neg hseg]
      split at h
      case isTrue hdown =>
        rw [if_pos hdown]
        exact initiate_frees sdoDownloadCompleteAccess_frees sdoDownload_frees h
      case isFalse hdown =>
        rw [if_neg hdown]
        split at h
        case isTrue hdownseg =>
          rw [if_pos hdownseg]
          exact sdoDownloadsegment_frees hidle hroom h
        case isFalse => exact h.elim

lemma initiate_faults {m m' : OnCoe σ Unit} {p q : Prop}
    (hcomplete : ¬ p → wlp env k m (fun _ _ => False) c)
    (hsingle : ¬ q → wlp env k m' (fun _ _ => False) c) {complete : Prop} [Decidable complete]
    (h : ¬ if complete then p else q) :
    wlp env k (if complete then m else m') (fun _ _ => False) c := by
  split at h
  case isTrue hc => rw [if_pos hc]; exact hcomplete h
  case isFalse hc => rw [if_neg hc]; exact hsingle h

/-- A request that is not handled to the end has no outcome, or leaves everything as it was. -/
lemma sdoRequest_stuck (hidle : c.mb.ReplyIdle env.sys.opts)
    (hroom : escMbxhsize < c.mb.activembxsize)
    (h : ¬ c.mb.RequestOk env.sys.dict.table env.alStatus) :
    wlp env k (sdoRequest c.mb) (fun _ c' => c' = c) c := by
  have fails {m : OnCoe σ Unit} (hm : wlp env k m (fun _ _ => False) c) :
      wlp env k m (fun _ c' => c' = c) c := hm.mono fun _ _ h => h.elim
  rw [Mailbox.RequestOk] at h
  rw [sdoRequest]
  split at h
  case isTrue hup =>
    rw [if_pos hup]
    exact fails (initiate_faults (sdoUploadCompleteAccess_faults hidle) sdoUpload_faults h)
  case isFalse hup =>
    rw [if_neg hup]
    split at h
    case isTrue hseg =>
      rw [if_pos hseg]
      exact fails (sdoUploadsegment_faults hidle h)
    case isFalse hseg =>
      rw [if_neg hseg]
      split at h
      case isTrue hdown =>
        rw [if_pos hdown]
        exact fails (initiate_faults sdoDownloadCompleteAccess_faults sdoDownload_faults h)
      case isFalse hdown =>
        rw [if_neg hdown]
        split at h
        case isTrue hdownseg =>
          rw [if_pos hdownseg]
          exact fails (sdoDownloadsegment_faults hidle hroom h)
        case isFalse hdownseg =>
          rw [if_neg hdownseg]
          exact (wlp_pure _ _).mpr rfl

lemma coeNotRecognised_frees (m : Mailbox) : Frees env (coeNotRecognised (σ := σ) m) := by
  refine .ite (fun _ => ?_) fun _ => ?_
  · exact .bind (onMb_finishes (mbxError_finishes _)) fun _ => release_frees
  · exact .bind (sdoAbort_finishes _ _ _ _) fun _ => release_frees

lemma coeDispatch_released (hidle : c.mb.ReplyIdle env.sys.opts)
    (hroom : escMbxhsize < c.mb.activembxsize) (h : c.mb.InboxOk env.sys.dict.table env.alStatus) :
    wp env k (coeDispatch c.mb) (fun _ c' => c'.mb.Released) c := by
  have frees {m : OnCoe σ Unit} (hm : wp env k m (fun _ c' => c'.mb.Free) c) :
      wp env k m (fun _ c' => c'.mb.Released) c := hm.mono fun _ _ => .inl
  rw [Mailbox.InboxOk] at h
  rw [coeDispatch]
  split at h
  case isTrue hheld =>
    rw [if_pos hheld]
    exact frees (EndsIn.bind (onMb_finishes (mbxError_finishes _)) (fun _ => release_frees) k c)
  case isFalse hheld =>
    rw [if_neg hheld]
    split at h
    case isTrue hsdo =>
      rw [if_pos hsdo]
      exact frees (sdoRequest_frees hidle hroom h)
    case isFalse hsdo =>
      rw [if_neg hsdo]
      split at h
      case isTrue hlist =>
        rw [if_pos hlist]
        exact sdoGetodlist_released hidle h
      case isFalse hlist =>
        rw [if_neg hlist]
        split at h
        case isTrue hod =>
          rw [if_pos hod]
          exact frees (sdoGetod_frees hidle h)
        case isFalse hod =>
          rw [if_neg hod]
          split at h
          case isTrue hed =>
            rw [if_pos hed]
            exact frees (sdoGeted_frees hidle h)
          case isFalse hed =>
            rw [if_neg hed]
            exact frees (coeNotRecognised_frees _ k c)

lemma coeDispatch_stuck (hidle : c.mb.ReplyIdle env.sys.opts)
    (hroom : escMbxhsize < c.mb.activembxsize)
    (h : ¬ c.mb.InboxOk env.sys.dict.table env.alStatus) :
    wlp env k (coeDispatch c.mb) (fun _ c' => c' = c) c := by
  have fails {m : OnCoe σ Unit} (hm : wlp env k m (fun _ _ => False) c) :
      wlp env k m (fun _ c' => c' = c) c := hm.mono fun _ _ h => h.elim
  rw [Mailbox.InboxOk] at h
  rw [coeDispatch]
  split at h
  case isTrue => exact (h trivial).elim
  case isFalse hheld =>
    rw [if_neg hheld]
    split at h
    case isTrue hsdo =>
      rw [if_pos hsdo]
      exact sdoRequest_stuck hidle hroom h
    case isFalse hsdo =>
      rw [if_neg hsdo]
      split at h
      case isTrue hlist =>
        rw [if_pos hlist]
        exact fails (sdoGetodlist_faults h)
      case isFalse hlist =>
        rw [if_neg hlist]
        split at h
        case isTrue hod =>
          rw [if_pos hod]
          exact fails (sdoGetod_faults hidle h)
        case isFalse hod =>
          rw [if_neg hod]
          split at h
          case isTrue hed =>
            rw [if_pos hed]
            exact fails (sdoGeted_faults h)
          case isFalse => exact (h trivial).elim

/-! ## One pass -/

/-- A CoE message that `ESC_coeprocess` takes, with a buffer idle for the reply. -/
structure CoeAccepted (opts : Options) (m : Mailbox) : Prop where
  run : m.mbxRun = true
  xoe : m.xoe = 0
  inclaim : m.control 0 = .inclaim
  coe : m.mbxtype 0 = mbxcoe
  length : coeMinimumLength ≤ (m.headerLength 0).toNat
  idle : m.ReplyIdle opts
  room : escMbxhsize + coeHeadersize ≤ m.activembxsize

lemma CoeAccepted.room_lt {opts : Options} {m : Mailbox} (h : CoeAccepted opts m) :
    escMbxhsize < m.activembxsize :=
  Nat.lt_of_lt_of_le (by decide) h.room

/-- The mailbox with its message taken by the CoE protocol. -/
def Mailbox.taken (m : Mailbox) : Mailbox := { m with xoe := mbxcoe }

lemma taken_no_list {m : Mailbox} : ¬ (m.taken.xoe = mbxcoe + mbxodl ∧ m.taken.mbxoutpost = 0) :=
  fun h => absurd h.1 (show ¬ mbxcoe = mbxcoe + mbxodl by decide)

/-- `ESC_coeprocess` hands an accepted message to the dispatcher. -/
lemma wp_escCoeprocess_accepted (h : CoeAccepted env.sys.opts c.mb) {Q : Unit → Coe σ → Prop}
    (hQ : wp env k (coeDispatch c.mb.taken) Q { c with mb := c.mb.taken }) :
    wp env k escCoeprocess Q c := by
  rw [escCoeprocess, wp_bind, wp_coeMb, when, if_pos h.run, wp_bind, wp_coeMb, wp_bind, when,
    if_pos ⟨h.xoe, h.inclaim, h.coe⟩, if_neg (Nat.not_lt.mpr h.length), wp_coeModifyMb, wp_bind,
    wp_coeMb, wp_bind, wp_when]
  refine ⟨fun hlist => (taken_no_list hlist).elim, fun _ => ?_⟩
  rw [wp_bind, wp_coeMb, wp_when]
  exact ⟨fun _ => hQ, fun hne => (hne rfl).elim⟩

lemma wlp_escCoeprocess_accepted (h : CoeAccepted env.sys.opts c.mb) {Q : Unit → Coe σ → Prop}
    (hQ : wlp env k (coeDispatch c.mb.taken) Q { c with mb := c.mb.taken }) :
    wlp env k escCoeprocess Q c := by
  rw [escCoeprocess, wlp_bind, wlp_coeMb, when, if_pos h.run, wlp_bind, wlp_coeMb, wlp_bind, when,
    if_pos ⟨h.xoe, h.inclaim, h.coe⟩, if_neg (Nat.not_lt.mpr h.length), coeModifyMb, wlp_modify,
    wlp_bind, wlp_coeMb, wlp_bind, wlp_when]
  refine ⟨fun hlist => (taken_no_list hlist).elim, fun _ => ?_⟩
  rw [wlp_bind, wlp_coeMb, wlp_when]
  exact ⟨fun _ => hQ, fun hne => (hne rfl).elim⟩

/-- One pass of `ESC_coeprocess`. -/
def PassesTo (env : CoeEnv σ) (c c' : Coe σ) : Prop := ∃ k, escCoeprocess env k c = .ok () c'

lemma PassesTo.of_wp {c' : Coe σ} {Q : Unit → Coe σ → Prop} (h : ∀ k, wp env k escCoeprocess Q c)
    (hpass : PassesTo env c c') : Q () c' := by
  obtain ⟨k, hrun⟩ := hpass
  obtain ⟨_, c₁, hrun₁, hQ⟩ := h k
  rw [hrun] at hrun₁
  obtain ⟨_, rfl⟩ := Outcome.ok.inj hrun₁
  exact hQ

/-- One pass gives the inbox back: `ESC_coeprocess` and `ESC_xoeprocess` come to an end, and
then the inbox is idle with no transfer in progress, or a list of objects is being sent. -/
def Releases (sys : System σ) (w : World σ) : Prop :=
  ∃ n w', mailboxProtocols sys n w = .ok () w' ∧ w'.mb.Released

/-- Nothing waits for the handler of last resort. -/
def Mailbox.Done (m : Mailbox) : Prop := ¬ (m.xoe = 0 ∧ m.control 0 = .inclaim)

lemma Mailbox.Released.done {m : Mailbox} (h : m.Released) : m.Done := by
  rintro ⟨hxoe, hclaim⟩
  rcases h with hfree | hlist
  · rw [hfree.1] at hclaim
    cases hclaim
  · rw [hxoe] at hlist
    exact absurd hlist (by decide)

lemma wp_escXoeprocess_done {opts : Options} {m : Mailbox} (h : m.Done)
    (Q : Unit → Mailbox → Prop) : wp opts k escXoeprocess Q m ↔ Q () m := by
  rw [escXoeprocess, wp_bind, wp_get, when, if_neg fun hall => h hall.2, wp_pure]

lemma wlp_escXoeprocess_done {opts : Options} {m : Mailbox} (h : m.Done)
    (Q : Unit → Mailbox → Prop) : wlp opts k escXoeprocess Q m ↔ Q () m := by
  rw [escXoeprocess, wlp_bind, wlp_get, when, if_neg fun hall => h hall.2, wlp_pure]

/-- A message that is not handled to the end leaves the CoE protocol in charge of the inbox. -/
lemma mailboxProtocols_stuck (h : CoeAccepted sys.opts w.mb)
    (hnot : ¬ w.mb.taken.InboxOk sys.dict.table w.al.alStatus) :
    wlp sys k mailboxProtocols (fun _ w' => ¬ w'.mb.Released) w := by
  rw [mailboxProtocols, wlp_bind, wlp_within]
  refine wlp_escCoeprocess_accepted h ?_
  have stuck := @coeDispatch_stuck σ ⟨sys, w.al.alStatus⟩ k
    { outside := w.outside, mb := w.mb.taken, mem := w.mem } h.idle h.room_lt hnot
  refine stuck.mono fun _ c' hc' => ?_
  have hdone : c'.mb.Done := by
    rw [hc']
    exact fun hall => absurd hall.1 (show ¬ mbxcoe = 0 by decide)
  rw [wlp_within, mailboxOf_get, coeOf_put_mb, wlp_escXoeprocess_done hdone]
  subst hc'
  intro hreleased
  rcases hreleased with hfree | hlist
  · exact absurd hfree.2 (show ¬ mbxcoe = 0 by decide)
  · exact absurd hlist (show ¬ mbxcoe = mbxcoe + mbxodl by decide)

lemma mailboxProtocols_released (h : CoeAccepted sys.opts w.mb)
    (hok : w.mb.taken.InboxOk sys.dict.table w.al.alStatus) :
    wp sys k mailboxProtocols (fun _ w' => w'.mb.Released) w := by
  rw [mailboxProtocols, wp_bind, wp_within]
  refine wp_escCoeprocess_accepted h ?_
  have released := @coeDispatch_released σ ⟨sys, w.al.alStatus⟩ k
    { outside := w.outside, mb := w.mb.taken, mem := w.mem } h.idle h.room_lt hok
  refine released.mono fun _ c' hc' => ?_
  rw [wp_within, mailboxOf_get, coeOf_put_mb, wp_escXoeprocess_done hc'.done]
  exact hc'

/-- A message of the example device's inbox is accepted if its header is that of a CoE message. -/
lemma exampleInbox_accepted {message : List Byte}
    (hcoe : (exampleMailbox message).mbxtype 0 = mbxcoe)
    (hlength : coeMinimumLength ≤ ((exampleMailbox message).headerLength 0).toNat) :
    CoeAccepted exampleOptions (exampleInbox message).mb :=
  ⟨rfl, rfl, rfl, hcoe, hlength, ⟨1, by decide, by decide, rfl⟩,
    show escMbxhsize + coeHeadersize ≤ exampleOptions.mbxSize by decide⟩

end Soes
