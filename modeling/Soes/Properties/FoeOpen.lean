import Soes.Properties.Authorised
import Soes.Properties.FoeReports

/-!
# Which file a request for writing opens

`FOE_fopen` compares as many characters as the request has, at most `FOE_FN_MAX` of them, and the
number is that of the message length modulo 256.  So a request need not spell a file's name out: a
name that is closed by a zero means the file of exactly that name, any other the files that begin
with it, and an empty one every file (`Spells`). The first file that is meant is the only one looked
at: it is opened with its own password, in BOOT if it may be written there only, and a second file
of the same beginning is never tried.

`file_opened_iff` says this of every request and every list of files, with what the master is
answered and that a refused request leaves the server's files alone.
-/

namespace Soes

open Program Mailbox

variable {σ : Type} {env : FoeEnv σ} {k i : ℕ} {f : FoeFile σ} {s : FoeMem σ}

/-! ## Names -/

/-- What a requested name means: up to its zero it is a file's whole name, and without a zero the
beginning of one. -/
def Spells (requested name : List Byte) : Prop :=
  if 0 ∈ requested then name = requested.takeWhile (· ≠ 0) else requested <+: name

instance decidableSpells (requested name : List Byte) : Decidable (Spells requested name) :=
  inferInstanceAs (Decidable
    (if 0 ∈ requested then name = requested.takeWhile (· ≠ 0) else requested <+: name))

lemma spells_nil (name : List Byte) : Spells [] name := by
  rw [Spells, if_neg List.not_mem_nil]
  exact List.nil_prefix

lemma spells_zero (rest name : List Byte) : Spells (0 :: rest) name ↔ name = [] := by
  rw [Spells, if_pos List.mem_cons_self]
  exact Iff.rfl

lemma spells_cons {c : Byte} (hc : c ≠ 0) (rest name : List Byte) :
    Spells (c :: rest) name ↔ ∃ name', name = c :: name' ∧ Spells rest name' := by
  have hmem : 0 ∈ c :: rest ↔ 0 ∈ rest := by
    rw [List.mem_cons]
    exact ⟨fun h => h.resolve_left fun h => hc h.symm, .inr⟩
  unfold Spells
  by_cases hzero : 0 ∈ rest
  · rw [if_pos (hmem.mpr hzero), List.takeWhile_cons_of_pos (by simpa using hc)]
    simp only [if_pos hzero, exists_eq_right]
  · rw [if_neg (hmem.not.mpr hzero)]
    simp only [if_neg hzero]
    constructor
    · rintro ⟨tail, rfl⟩
      exact ⟨rest ++ tail, rfl, List.prefix_append _ _⟩
    · rintro ⟨name', rfl, hprefix⟩
      exact List.cons_prefix_cons.mpr ⟨rfl, hprefix⟩

/-- `strncmp` of a requested name with a C string. -/
lemma strncmpEq_iff (requested name : List Byte) (hname : 0 ∉ name) :
    strncmpEq requested name = true ↔ Spells requested name := by
  induction requested generalizing name with
  | nil => exact ⟨fun _ => spells_nil name, fun _ => rfl⟩
  | cons c rest ih =>
      by_cases hc : c = 0
      · subst hc
        rw [spells_zero]
        cases name with
        | nil => exact ⟨fun _ => rfl, fun _ => rfl⟩
        | cons d name' =>
            have hd : (0 : Byte) ≠ d := fun h => hname (h ▸ List.mem_cons_self)
            simp only [strncmpEq, decide_eq_true_eq, hd, false_and, List.cons_ne_nil]
      · rw [spells_cons hc]
        cases name with
        | nil => simp only [strncmpEq, decide_eq_true_eq, hc, List.nil_eq, reduceCtorEq, false_and,
            exists_false]
        | cons d name' =>
            have hrest := ih name' fun h => hname (List.mem_cons_of_mem d h)
            simp only [strncmpEq, decide_eq_true_eq, hc, false_or, hrest, List.cons.injEq]
            constructor
            · rintro ⟨rfl, h⟩
              exact ⟨name', ⟨rfl, rfl⟩, h⟩
            · rintro ⟨tail, ⟨rfl, rfl⟩, h⟩
              exact ⟨rfl, h⟩

/-! ## Requests -/

/-- The name in a request. -/
def Mailbox.requestedName (m : Mailbox) : List Byte := foeFileName m.mbx m.foeNameLength

/-- File `i` is the first one that a requested name means. -/
structure MeansFile (files : List (FoeFile σ)) (name : List Byte) (i : ℕ) (f : FoeFile σ) :
    Prop where
  get : files[i]? = some f
  spells : Spells name f.name
  first : ∀ j g, j < i → files[j]? = some g → ¬ Spells name g.name

/-- The request is granted, for file `i`: the password is its own, and the slave in BOOT where it
needs to be. -/
def OpensFile (env : FoeEnv σ) (name : List Byte) (pass : Dword) (i : ℕ) (f : FoeFile σ) : Prop :=
  MeansFile env.cfg.files name i f ∧ f.grants pass env.alStatus

/-- The request is refused, with this error. -/
inductive RefusesFile (env : FoeEnv σ) (name : List Byte) (pass : Dword) : Dword → Prop where
  /-- No file is meant. -/
  | notfound (h : ∀ f ∈ env.cfg.files, ¬ Spells name f.name) :
      RefusesFile env name pass foeErrNotfound
  /-- The password is not that of the first file meant. -/
  | norights {i : ℕ} {f : FoeFile σ} (hf : MeansFile env.cfg.files name i f)
      (hpass : pass ≠ f.filepass) : RefusesFile env name pass foeErrNorights
  /-- The first file meant may be written in BOOT only. -/
  | notinbootstrap {i : ℕ} {f : FoeFile σ} (hf : MeansFile env.cfg.files name i f)
      (hpass : pass = f.filepass) (honly : f.writeOnlyInBoot = true)
      (hboot : env.alStatus ≠ escBoot.setWidth 16) : RefusesFile env name pass foeErrNotinbootstrap

variable {files : List (FoeFile σ)} {name : List Byte} {pass code : Dword}

lemma MeansFile.unique {j : ℕ} {g : FoeFile σ} (h : MeansFile files name i f)
    (h' : MeansFile files name j g) : i = j ∧ f = g := by
  have hij : i = j := by
    rcases Nat.lt_trichotomy i j with hlt | rfl | hlt
    · exact (h'.first i f hlt h.get h.spells).elim
    · rfl
    · exact (h.first j g hlt h'.get h'.spells).elim
  subst hij
  exact ⟨rfl, Option.some.inj (h.get.symm.trans h'.get)⟩

lemma RefusesFile.not_opens (h : RefusesFile env name pass code) :
    ¬ OpensFile env name pass i f := by
  rintro ⟨hf', hgrants⟩
  cases h with
  | notfound hnone => exact hnone f (List.mem_of_getElem? hf'.get) hf'.spells
  | norights hf hpass =>
      obtain ⟨-, rfl⟩ := hf.unique hf'
      exact hpass hgrants.1
  | notinbootstrap hf _ honly hboot =>
      obtain ⟨-, rfl⟩ := hf.unique hf'
      exact hboot (hgrants.2 honly)

lemma RefusesFile.ne_zero (h : RefusesFile env name pass code) : code ≠ 0 := by
  cases h <;> decide

/-! ## FOE_fopen -/

/-- The scan of `FOE_fopen` finds the first file that is meant. -/
lemma meansFile_iff (hnames : ∀ f ∈ files, 0 ∉ f.name) (hget : files[i]? = some f) :
    MeansFile files name i f ↔ files.findIdx? (fun f => strncmpEq name f.name) = some i := by
  rw [List.findIdx?_eq_some_iff_getElem]
  obtain ⟨hi, hfi⟩ := List.getElem?_eq_some_iff.mp hget
  have hspells (g : FoeFile σ) (hg : g ∈ files) :
      strncmpEq name g.name = true ↔ Spells name g.name :=
    strncmpEq_iff _ _ (hnames g hg)
  constructor
  · intro h
    refine ⟨hi, ?_, fun j hj htrue => ?_⟩
    · rw [hfi]
      exact (hspells f (List.mem_of_getElem? hget)).mpr h.spells
    · have hjlt : j < files.length := Nat.lt_trans hj hi
      apply h.first j files[j] hj (List.getElem?_eq_getElem hjlt)
      exact (hspells _ (List.getElem_mem hjlt)).mp htrue
  · rintro ⟨_, hfound, hfirst⟩
    rw [hfi] at hfound
    refine ⟨hget, (hspells f (List.mem_of_getElem? hget)).mp hfound, fun j g hj hg hmeans => ?_⟩
    obtain ⟨hjlt, hgj⟩ := List.getElem?_eq_some_iff.mp hg
    apply hfirst j hj
    rw [hgj]
    exact (hspells g (List.mem_of_getElem? hg)).mpr hmeans

/-- The variables when file `i` is open and nothing was received yet. -/
def Foe.opening (v : Foe) (i maxData : ℕ) : Foe :=
  { v with
    file := some i
    files := fun k => if k = i then ⟨0, 0⟩ else v.files k
    fposition := 0
    fend := maxData }

/-- `FOE_fopen` opens the file that the request is granted for, or says why not and changes
nothing. -/
lemma foeFopen_answers (hnames : ∀ f ∈ env.cfg.files, 0 ∉ f.name) (numChars : Byte) :
    wp env k (foeFopen numChars pass) (fun res s' =>
      (res = 0 ∧ ∃ i f, OpensFile env (foeFileName s.mb.mbx numChars) pass i f ∧
        s' = { s with foe := s.foe.opening i f.maxData }) ∨
      (RefusesFile env (foeFileName s.mb.mbx numChars) pass res ∧ s' = s)) s := by
  rw [foeFopen, wp_ask_bind, wp_get_bind]
  dsimp only
  generalize foeFileName s.mb.mbx numChars = name
  cases hfind : env.cfg.files.findIdx? fun f => strncmpEq name f.name with
  | none =>
      refine (wp_pure _ _).mpr (.inr ⟨.notfound fun f hf hmeans => ?_, rfl⟩)
      have hfalse := List.findIdx?_eq_none_iff.mp hfind f hf
      rw [(strncmpEq_iff _ _ (hnames f hf)).mpr hmeans] at hfalse
      cases hfalse
  | some i =>
      dsimp only
      have hi : i < env.cfg.files.length := (List.findIdx?_eq_some_iff_getElem.mp hfind).1
      obtain ⟨f, hget⟩ : ∃ f, env.cfg.files[i]? = some f := ⟨_, List.getElem?_eq_getElem hi⟩
      have hmeans : MeansFile env.cfg.files name i f := (meansFile_iff hnames hget).mpr hfind
      rw [hget]
      refine (wp_ite _ _ _ _).mpr ⟨fun hpass => ?_, fun hpass => ?_⟩
      · exact (wp_pure _ _).mpr (.inr ⟨.norights hmeans hpass, rfl⟩)
      refine (wp_ite _ _ _ _).mpr ⟨fun hboot => ?_, fun hboot => ?_⟩
      · exact (wp_pure _ _).mpr
          (.inr ⟨.notinbootstrap hmeans (not_not.mp hpass) hboot.1 hboot.2, rfl⟩)
      · rw [wp_bind, foeModify, wp_modify, wp_pure]
        refine .inl ⟨rfl, i, f, ⟨hmeans, not_not.mp hpass, fun honly => ?_⟩, rfl⟩
        exact not_not.mp fun hne => hboot ⟨honly, hne⟩

/-! ## Answers -/

lemma message_putFoe (m : Mailbox) (n : ℕ) (opcode : Byte) (number : Dword) :
    (m.putFoe n opcode number).message n =
      ((((m.message n).setWord 0 (.ofNat 16 escFoehsize)).set 5
        ((m.message n 5 &&& 0xf0) ||| mbxfoe)).set 6 opcode).setDword 8 number := by
  simp only [message, putFoe, setHeader, updateMbx, buffer, ByteStore.shift_set,
    ByteStore.shift_setDword, ByteStore.shift_setWord_start]
  rfl

/-- `m'` is `m` with an FoE message of this opcode and number waiting in a buffer that was idle. -/
def Mailbox.Sends (opts : Options) (m m' : Mailbox) (opcode : Byte) (number : Dword) : Prop :=
  ∃ n, m.IdleBuffer opts n ∧ (∀ j, m'.control j =
      if j = 0 then .idle else if j = n then .outreq else m.control j) ∧
    (m'.message n).word 0 = .ofNat 16 escFoehsize ∧ m'.message n 5 &&& 0x0f = mbxfoe ∧
    m'.message n 6 = opcode ∧ (m'.message n).dword 8 = number

/-- A claimed buffer is filled with an FoE message and posted, and the inbox given back. -/
lemma sends_claim {opts : Options} {m m' : Mailbox} {n : ℕ} (hn : m.IdleBuffer opts n)
    (opcode : Byte) (number : Dword)
    (hm : m' = ((m.claim n).putFoe n opcode number).setControl n .outreq) :
    m.Sends opts { m'.setControl 0 .idle with xoe := 0 } opcode number := by
  have hmessage : ({ m'.setControl 0 .idle with xoe := 0 } : Mailbox).message n =
      ((m.claim n).putFoe n opcode number).message n := by
    rw [hm]
    rfl
  refine ⟨n, hn, fun j => ?_, ?_⟩
  · rw [hm]
    change (if j = 0 then MbxState.idle else if j = n then MbxState.outreq else
      (m.claim n).control j) = _
    by_cases hj : j = n
    · rw [if_pos hj, if_pos hj]
    · rw [if_neg hj, if_neg hj]
      congr 1
      exact if_neg hj
  · rw [hmessage, message_putFoe]
    refine ⟨?_, ?_, ?_, ByteStore.dword_setDword _⟩
    · rw [ByteStore.word_setDword_of_disjoint _ (.inr (by omega)),
        ByteStore.word_set_of_disjoint _ (.inr (by omega)),
        ByteStore.word_set_of_disjoint _ (.inr (by omega)), ByteStore.word_setWord]
    · rw [ByteStore.setDword_of_outside _ (.inl (by omega)),
        ByteStore.set_of_ne _ (by decide : (5 : ℕ) ≠ 6), ByteStore.set_self]
      generalize (m.claim n).message n 5 = b
      revert b
      decide +kernel
    · rw [ByteStore.setDword_of_outside _ (.inl (by omega)), ByteStore.set_self]

/-- What is queued for a request, if anything: an FoE message of this opcode and number. -/
def Queues (env : FoeEnv σ) (m m' : Mailbox) (opcode : Byte) (number : Dword) : Prop :=
  (¬ m.ReplyIdle env.opts ∧ m' = m) ∨
    ∃ n, m.IdleBuffer env.opts n ∧
      m' = ((m.claim n).putFoe n opcode number).setControl n .outreq

lemma Queues.sends {m m' : Mailbox} {opcode : Byte} {number : Dword}
    (h : Queues env m m' opcode number) (hidle : m.ReplyIdle env.opts) :
    m.Sends env.opts { m'.setControl 0 .idle with xoe := 0 } opcode number := by
  rcases h with ⟨hnone, -⟩ | ⟨n, hn, hm⟩
  · exact (hnone hidle).elim
  · exact sends_claim hn opcode number hm

lemma foeAbort_queues (hcode : code ≠ 0) :
    wp env k (foeAbort code) (fun _ s' => s'.outside = s.outside ∧ s'.foe = s.foe.init ∧
      Queues env s.mb s'.mb foeOpErr code) s := by
  rw [foeAbort, wp_bind, when, if_pos hcode, wp_bind]
  refine claim_cases (fun hnone => ?_) fun n hn => ?_
  · rw [when, if_neg (not_not.mpr rfl), wp_pure, foeInit, foeModify, wp_modify]
    exact ⟨rfl, rfl, .inl ⟨hnone, rfl⟩⟩
  · rw [when, if_pos (Nat.pos_iff_ne_zero.mp hn.1), wp_foeModifyMb, foeInit, foeModify, wp_modify]
    exact ⟨rfl, rfl, .inr ⟨n, hn, rfl⟩⟩

lemma foeSendAck_queues :
    wp env k foeSendAck (fun res s' => s'.outside = s.outside ∧
      ((¬ s.mb.ReplyIdle env.opts ∧ res = foeErrProgerror ∧ s' = s) ∨
        (s.mb.ReplyIdle env.opts ∧ res = 0 ∧
          s'.foe = { s.foe with foepacket := s.foe.foepacket + 1 } ∧
          Queues env s.mb s'.mb foeOpAck s.foe.foepacket))) s := by
  rw [foeSendAck, wp_bind]
  refine claim_cases (fun hnone => ?_) fun n hn => ?_
  · rw [if_neg (not_not.mpr rfl), wp_pure]
    exact ⟨rfl, .inl ⟨hnone, rfl, rfl⟩⟩
  · rw [if_pos (Nat.pos_iff_ne_zero.mp hn.1), wp_get_bind, wp_bind, wp_foeModifyMb, wp_bind,
      foeModify, wp_modify, wp_bind, wp_foeModifyMb, wp_pure]
    exact ⟨rfl, .inr ⟨⟨n, hn⟩, rfl, rfl, .inr ⟨n, hn, rfl⟩⟩⟩

/-! ## FOE_write -/

/-- What a request for writing comes to: it opens a file and is acknowledged, or it is refused
and an error is answered.  Without an idle buffer a granted request ends at once, but the file has
been opened, and is empty. -/
def RequestEnds (env : FoeEnv σ) (name : List Byte) (pass : Dword) (s s' : FoeMem σ) : Prop :=
  s'.outside = s.outside ∧
  ((∃ i f, OpensFile env name pass i f ∧
      ((s.mb.ReplyIdle env.opts ∧ s'.foe = s.foe.opened i f.maxData ∧
          Queues env s.mb s'.mb foeOpAck 0) ∨
        (¬ s.mb.ReplyIdle env.opts ∧ s'.foe = (s.foe.opened i f.maxData).init ∧ s'.mb = s.mb))) ∨
    ∃ code, RefusesFile env name pass code ∧ s'.foe = s.foe.init ∧
      Queues env s.mb s'.mb foeOpErr code)

/-- `FOE_write`, in a server that is ready. -/
lemma foeWrite_ends (hnames : ∀ f ∈ env.cfg.files, 0 ∉ f.name) (hready : s.foe.foestate = .ready) :
    wp env k foeWrite (fun _ s' => RequestEnds env s.mb.requestedName s.mb.foeNumber s s') s := by
  rw [foeWrite, wp_get_bind]
  refine (wp_ite _ _ _ _).mpr ⟨fun hne => (hne hready).elim, fun _ => ?_⟩
  rw [wp_bind, foeInit, foeModify, wp_modify, wp_get_bind]
  change wp env k (foeFopen s.mb.foeNameLength s.mb.foeNumber >>= _) _ { s with foe := s.foe.init }
  refine (foeFopen_answers hnames s.mb.foeNameLength).bind fun res s₁ hthen => ?_
  change (_ ∧ ∃ i f, OpensFile env s.mb.requestedName _ i f ∧ _) ∨
    (RefusesFile env s.mb.requestedName _ res ∧ _) at hthen
  rcases hthen with ⟨rfl, i, f, hopens, rfl⟩ | ⟨hrefuses, rfl⟩
  · refine (wp_ite _ _ _ _).mpr ⟨fun _ => ?_, fun hno => (hno rfl).elim⟩
    refine foeSendAck_queues.bind fun res₂ s₂ hsent => ?_
    obtain ⟨hout, ⟨hnone, rfl, rfl⟩ | ⟨hidle, rfl, hfoe, hqueues⟩⟩ := hsent
    · refine (wp_ite _ _ _ _).mpr ⟨fun _ => ?_, fun hno => (hno (by decide)).elim⟩
      refine (foeAbort_queues (by decide)).mono fun _ s₃ hthen => ?_
      obtain ⟨hout₃, hfoe₃, hqueues⟩ := hthen
      refine ⟨hout₃, .inl ⟨i, f, hopens, .inr ⟨hnone, hfoe₃, ?_⟩⟩⟩
      rcases hqueues with ⟨-, hmb⟩ | ⟨n, hn, -⟩
      · exact hmb
      · exact (hnone ⟨n, hn⟩).elim
    · refine (wp_ite _ _ _ _).mpr ⟨fun hno => (hno rfl).elim, fun _ => ?_⟩
      rw [foeModify, wp_modify]
      refine ⟨hout, .inl ⟨i, f, hopens, .inl ⟨hidle, ?_, hqueues⟩⟩⟩
      dsimp only
      rw [hfoe]
      rfl
  · refine (wp_ite _ _ _ _).mpr ⟨fun hzero => (hrefuses.ne_zero hzero).elim, fun _ => ?_⟩
    refine (foeAbort_queues hrefuses.ne_zero).mono fun _ s₂ hthen => ?_
    obtain ⟨hout, hfoe, hqueues⟩ := hthen
    exact ⟨hout, .inr ⟨res, hrefuses, hfoe, hqueues⟩⟩

/-- A request for writing stands in the inbox, as a whole: `ESC_mbxprocess` drops a message that
says it is longer (`mbxReceive_fits`). -/
structure Mailbox.IsWrq (m : Mailbox) : Prop where
  handled : m.foeHandled
  length : escFoehsize ≤ (m.headerLength 0).toNat
  inside : escMbxhsize + (m.headerLength 0).toNat ≤ m.activembxsize
  opcode : m.foeOpcode = foeOpWrq

/-- `ESC_foeprocess` hands a request on, and gives the inbox back. -/
lemma escFoeprocess_request (hnames : ∀ f ∈ env.cfg.files, 0 ∉ f.name) (hwrq : s.mb.IsWrq)
    (hready : s.foe.foestate = .ready) :
    wp env k escFoeprocess (fun _ s' => ∃ s₁,
      RequestEnds env s.mb.requestedName s.mb.foeNumber { s with mb := { s.mb with xoe := mbxfoe } }
        s₁ ∧ s' = { s₁ with mb := { s₁.mb.setControl 0 .idle with xoe := 0 } }) s := by
  rw [escFoeprocess, wp_get_bind]
  refine .when (fun _ => ?_) fun hno => (hno hwrq.handled.1).elim
  rw [wp_get_bind]
  refine wp.bind (P := fun _ s₁ => s₁ = { s with mb := { s.mb with xoe := mbxfoe } })
    (.when (fun _ => (wp_foeModifyMb _ _).mpr rfl) fun hnot => ?_) fun _ s₁ hs₁ => ?_
  · rcases hwrq.handled.2 with hxoe | hclaim
    · rw [← hxoe]
    · exact (hnot hclaim).elim
  · rw [wp_get_bind, hs₁]
    refine .when (fun _ => ?_) fun hno => (hno rfl).elim
    refine wp.bind (P := fun _ s₂ => RequestEnds env s.mb.requestedName s.mb.foeNumber
      { s with mb := { s.mb with xoe := mbxfoe } } s₂) ?_ fun _ s₂ hends => ?_
    · refine (wp_ite _ _ _ _).mpr ⟨fun hshort => ?_, fun _ => ?_⟩
      · exact absurd hwrq.length (Nat.not_le.mpr hshort)
      refine (wp_ite _ _ _ _).mpr ⟨fun _ => ?_, fun hno => (hno hwrq.opcode).elim⟩
      exact foeWrite_ends hnames hready
    · rw [wp_foeModifyMb]
      exact ⟨s₂, hends, rfl⟩

/-- **A request for writing opens file `i` exactly if `i` is the first file that its name means,
with the file's own password and in BOOT where that is needed, and there is a buffer for the
answer.** Then the file is empty, no other file has changed, and the server acknowledges packet 0.
If only the buffer is missing the file is emptied all the same, but the server is ready again and
nothing is queued. Else no file has changed, and the error says which of the three was missing. No
write function is called. -/
theorem file_opened_iff (hnames : ∀ f ∈ env.cfg.files, 0 ∉ f.name) (hwrq : s.mb.IsWrq)
    (hready : s.foe.foestate = .ready) :
    ∃ s', escFoeprocess env k s = .ok () s' ∧ s'.outside = s.outside ∧
      (∀ i, s'.foe.foestate = .waitForData ∧ s'.foe.file = some i ↔
        s.mb.ReplyIdle env.opts ∧ ∃ f, OpensFile env s.mb.requestedName s.mb.foeNumber i f) ∧
      (∀ i f, OpensFile env s.mb.requestedName s.mb.foeNumber i f → s.mb.ReplyIdle env.opts →
        s'.foe = s.foe.opened i f.maxData ∧ s.mb.Sends env.opts s'.mb foeOpAck 0) ∧
      (∀ i f, OpensFile env s.mb.requestedName s.mb.foeNumber i f → ¬ s.mb.ReplyIdle env.opts →
        s'.foe = (s.foe.opened i f.maxData).init ∧
          s'.mb = { s.mb.setControl 0 .idle with xoe := 0 }) ∧
      ((∀ i f, ¬ OpensFile env s.mb.requestedName s.mb.foeNumber i f) →
        s'.foe = s.foe.init ∧ (s.mb.ReplyIdle env.opts →
          ∃ code, RefusesFile env s.mb.requestedName s.mb.foeNumber code ∧
            s.mb.Sends env.opts s'.mb foeOpErr code)) := by
  obtain ⟨_, s', hrun, s₁, ⟨hout, hends⟩, rfl⟩ := escFoeprocess_request (k := k) hnames hwrq hready
  refine ⟨_, hrun, hout, ?_⟩
  rcases hends with ⟨i, f, hopens, hends⟩ | ⟨code, hrefuses, hfoe, hqueues⟩
  · have hunique {j : ℕ} {g : FoeFile σ}
        (h : OpensFile env s.mb.requestedName s.mb.foeNumber j g) : i = j ∧ f = g :=
      hopens.1.unique h.1
    rcases hends with ⟨hidle, hfoe, hqueues⟩ | ⟨hnone, hfoe, hmb⟩
    · refine ⟨fun j => ⟨?_, ?_⟩, fun j g h _ => ?_, fun _ _ _ hnone => (hnone hidle).elim,
        fun h => (h i f hopens).elim⟩
      · rintro ⟨-, hfile⟩
        rw [hfoe] at hfile
        cases hfile
        exact ⟨hidle, f, hopens⟩
      · rintro ⟨-, g, hg⟩
        obtain ⟨rfl, rfl⟩ := hunique hg
        rw [hfoe]
        exact ⟨rfl, rfl⟩
      · obtain ⟨rfl, rfl⟩ := hunique h
        exact ⟨hfoe, hqueues.sends hidle⟩
    · refine ⟨fun j => ⟨?_, ?_⟩, fun _ _ _ hidle => (hnone hidle).elim, fun j g h _ => ?_,
        fun h => (h i f hopens).elim⟩
      · rintro ⟨hwait, -⟩
        rw [hfoe] at hwait
        cases hwait
      · rintro ⟨hidle, -⟩
        exact (hnone hidle).elim
      · obtain ⟨rfl, rfl⟩ := hunique h
        refine ⟨hfoe, ?_⟩
        rw [hmb]
        rfl
  · refine ⟨fun j => ⟨?_, ?_⟩, fun _ _ h => (hrefuses.not_opens h).elim,
      fun _ _ h => (hrefuses.not_opens h).elim, fun _ => ?_⟩
    · rintro ⟨hwait, -⟩
      rw [hfoe] at hwait
      cases hwait
    · rintro ⟨-, g, hg⟩
      exact (hrefuses.not_opens hg).elim
    · exact ⟨hfoe, fun hidle => ⟨code, hrefuses, hqueues.sends hidle⟩⟩

/-! ## A request for the beginning of a name -/

/-- A firmware file, which may be written in BOOT only. -/
def firmwareFile : FoeFile Unit where
  name := [0x66, 0x77]
  maxData := 4096
  filepass := 5
  writeOnlyInBoot := true
  writeFunction _ _ _ _ := ((), 0)

/-- The server of a slave in BOOT, with the firmware file and a second file of that beginning. -/
def firmwareEnv : FoeEnv Unit :=
  ⟨exampleOptions, ⟨256, [firmwareFile, { firmwareFile with name := [0x66], filepass := 0 }]⟩,
    escBoot.setWidth 16⟩

/-- The master asks for the file `f`, with the password of the firmware file. -/
def firmwareMem : FoeMem Unit where
  outside := ()
  mb := exampleMailbox [7, 0, 0, 0, 0, mbxfoe, foeOpWrq, 0, 5, 0, 0, 0, 0x66]
  foe := (Device.zeroed () 0 fun _ => 0).foe

lemma firmwareMem_isWrq : firmwareMem.mb.IsWrq := ⟨by decide, by decide, by decide, by decide⟩

theorem file_opened_example : ∃ s', escFoeprocess firmwareEnv 0 firmwareMem = .ok () s' ∧
    s'.foe.foestate = .waitForData ∧ s'.foe.file = some 0 := by
  obtain ⟨s', hrun, -, hiff, -⟩ :=
    @file_opened_iff _ firmwareEnv 0 firmwareMem (by decide) firmwareMem_isWrq rfl
  have hmeans : MeansFile firmwareEnv.cfg.files firmwareMem.mb.requestedName 0 firmwareFile :=
    ⟨rfl, by decide, fun _ _ hj => absurd hj (Nat.not_lt_zero _)⟩
  refine ⟨s', hrun, (hiff 0).mpr ⟨⟨1, by decide⟩, firmwareFile, hmeans, ?_⟩⟩
  decide

end Soes
