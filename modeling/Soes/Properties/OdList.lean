import Soes.Properties.InboxRelease
import Soes.Properties.SdoRoundTrip

/-!
# The list of objects

The list of the dictionary's indexes goes out in parts: the first one with the list type before
it, the others without, and each of as many indexes as `ODLISTSIZE` has room for.  Where a part
starts is reckoned from the parts that are left.  For every dictionary and every size of the
mailboxes that has room for one index, the parts together are the list (`od_list_complete`).
-/

namespace Soes

open Program Mailbox

variable {σ : Type} {env : CoeEnv σ} {k n : ℕ} {c c' : Coe σ}

/-! ## Indexes in a message -/

/-- Writing indexes stores them one after another, and nothing else. -/
lemma putIndexes_stores {table : List Objectlist} {count i : ℕ} (h : i + count ≤ table.length)
    (dst : ℕ) (mbx : ByteStore) : ∃ r, putIndexes table count i dst mbx = .ok r ∧
      r.words dst count = ((table.drop i).take count).map Objectlist.index ∧
      ∀ a, a < dst ∨ dst + 2 * count ≤ a → r a = mbx a := by
  induction count generalizing i dst mbx with
  | zero => exact ⟨mbx, rfl, rfl, fun _ _ => rfl⟩
  | succ count ih =>
      have hi : i < table.length := by omega
      obtain ⟨r, hr, hwords, hkept⟩ := ih (i := i + 1) (by omega) (dst + 2)
        (mbx.setWord dst (table[i].index))
      refine ⟨r, except_bind_eq_ok.mpr ⟨table[i],
        objectAt_eq_ok.mpr (List.getElem?_eq_getElem hi), hr⟩, ?_, fun a ha => ?_⟩
      · have hfirst : r.word dst = table[i].index := by
          have hlow := hkept dst (.inl (by omega))
          have hhigh := hkept (dst + 1) (.inl (by omega))
          rw [ByteStore.word, hlow, hhigh]
          exact ByteStore.word_setWord _
        rw [ByteStore.words_succ', hwords, hfirst, List.drop_eq_getElem_cons hi,
          List.take_succ_cons, List.map_cons]
      · rw [hkept a (by omega)]
        exact ByteStore.setWord_of_outside _ (by omega)

/-- The rows before the sentinel are counted. -/
lemma countObjects_length {objects : List Objectlist} (hbelow : ∀ o ∈ objects, o.index < 0xFFFF)
    (hlength : objects.length < 2 ^ 16) :
    countObjects (objects ++ [sentinel]) = .ok objects.length := by
  induction objects with
  | nil => rfl
  | cons o rest ih =>
      have hne : ¬ o.index = 0xFFFF := by
        intro heq
        have hlt := hbelow o (List.mem_cons_self ..)
        rw [heq] at hlt
        exact absurd hlt (by decide)
      rw [List.length_cons] at hlength
      rw [List.cons_append, countObjects, if_neg hne,
        ih (fun o ho => hbelow o (List.mem_cons_of_mem _ ho)) (by omega)]
      show Except.ok ((rest.length + 1) % 2 ^ 16) = _
      rw [Nat.mod_eq_of_lt hlength, List.length_cons]

/-- Indexes that ascend from a number on are fewer than the numbers that are left. -/
lemma ascending_length {objects : List Objectlist} {lower : ℕ} (hlower : lower ≤ 0xFFFF)
    (hascending : objects.Pairwise fun o o' => o.index < o'.index)
    (hbetween : ∀ o ∈ objects, lower ≤ o.index.toNat ∧ o.index.toNat < 0xFFFF) :
    objects.length + lower ≤ 0xFFFF := by
  induction objects generalizing lower with
  | nil =>
      rw [List.length_nil]
      omega
  | cons o rest ih =>
      obtain ⟨hfirst, hrest⟩ := List.pairwise_cons.mp hascending
      have ho := hbetween o (List.mem_cons_self ..)
      have hle : rest.length + (o.index.toNat + 1) ≤ 0xFFFF := by
        refine ih (by omega) hrest fun o' ho' => ⟨?_, ?_⟩
        · exact BitVec.lt_def.mp (hfirst o' ho')
        · exact (hbetween o' (List.mem_cons_of_mem _ ho')).2
      rw [List.length_cons]
      omega

lemma Dictionary.length_lt (dict : Dictionary) : dict.objects.length < 2 ^ 16 := by
  have hle := ascending_length (Nat.zero_le _) dict.ascending fun o ho =>
    ⟨Nat.zero_le _, BitVec.lt_def.mp (dict.below_sentinel o ho)⟩
  omega

/-! ## Parts -/

/-- A part of the list, as the message in a buffer has it. -/
structure ListPart where
  opcode : Byte
  length : Word
  incomplete : Bool
  fragmentsleft : Word
  indexes : List Word
  deriving DecidableEq, Repr

/-- The message in buffer `n` read as a part of the list, with this many bytes before the first
index that the length counts. -/
def Mailbox.listPart (m : Mailbox) (n header : ℕ) : ListPart :=
  let r := m.message n
  { opcode := r 8 &&& 0x7f
    length := r.word 0
    incomplete := decide (r 8 &&& 0x80 ≠ 0)
    fragmentsleft := r.word 10
    indexes := r.words (escMbxhsize + header) (((r.word 0).toNat - header) / 2) }

/-- The message in buffer `n` is a part of the list: `count` rows from row `first` on, behind
`header` bytes that the length counts. -/
structure Mailbox.HoldsPart (m : Mailbox) (n header : ℕ) (table : List Objectlist)
    (first count left : ℕ) (last : Bool) : Prop where
  opcode : m.message n 8 = coeGetodlistresponse ||| if last then 0 else 0x80
  length : (m.message n).word 0 = .ofNat 16 (header + 2 * count)
  left : (m.message n).word 10 = .ofNat 16 left
  indexes : (m.message n).words (escMbxhsize + header) count =
    ((table.drop first).take count).map Objectlist.index

/-- What is read from such a message. -/
lemma Mailbox.HoldsPart.listPart_eq {m : Mailbox} {header first count left : ℕ} {last : Bool}
    {table : List Objectlist} (h : m.HoldsPart n header table first count left last)
    (hlength : header + 2 * count < 2 ^ 16) :
    m.listPart n header =
      { opcode := coeGetodlistresponse, length := .ofNat 16 (header + 2 * count)
        incomplete := !last, fragmentsleft := .ofNat 16 left
        indexes := ((table.drop first).take count).map Objectlist.index } := by
  have hcount : ((BitVec.ofNat 16 (header + 2 * count)).toNat - header) / 2 = count := by
    rw [BitVec.toNat_ofNat, Nat.mod_eq_of_lt hlength]
    omega
  rw [listPart, h.length, h.left, hcount, h.indexes, h.opcode]
  cases last <;> rfl

/-- The head of an SDO Information reply. -/
lemma message_putInfo (m : Mailbox) (opcode : Byte) (incomplete : Bool) (left : ℕ) :
    (m.putInfo n opcode incomplete left).message n 8 =
        opcode ||| (if incomplete then 0x80 else 0) ∧
      ((m.putInfo n opcode incomplete left).message n).word 10 = .ofNat 16 left := by
  simp only [message, putInfo, updateMbx, buffer, ByteStore.shift_set, ByteStore.shift_setWord]
  constructor
  · rw [ByteStore.setWord_of_outside _ (.inl (by omega)),
      ByteStore.set_of_ne _ (by omega), ByteStore.set_self]
  · exact ByteStore.word_setWord _

/-- The list type comes behind the head. -/
lemma message_putType (m : Mailbox) (type : Word) :
    (m.putWord n 12 type).message n 8 = m.message n 8 ∧
      ((m.putWord n 12 type).message n).word 10 = (m.message n).word 10 := by
  simp only [message, putWord, updateMbx, buffer, ByteStore.shift_setWord]
  constructor
  · exact ByteStore.setWord_of_outside _ (.inl (by omega))
  · exact ByteStore.word_setWord_of_disjoint _ (by omega)

/-- A part is written: the indexes, then the length, and the buffer is posted. -/
lemma holdsPart_written {m : Mailbox} {r : ByteStore} {header first count left : ℕ} {last : Bool}
    {table : List Objectlist} (hheader : 6 ≤ header)
    (hopcode : m.message n 8 = coeGetodlistresponse ||| if last then 0 else 0x80)
    (hleft : (m.message n).word 10 = .ofNat 16 left)
    (hwords : r.words (m.buffer n + (escMbxhsize + header)) count =
      ((table.drop first).take count).map Objectlist.index)
    (hkept : ∀ a, a < m.buffer n + (escMbxhsize + header) → r a = m.mbx a) :
    ((({ m with mbx := r } : Mailbox).putLength n (header + 2 * count)).setControl n
      .outreq).HoldsPart n header table first count left last := by
  have hmessage : ((({ m with mbx := r } : Mailbox).putLength n (header + 2 * count)).setControl n
      .outreq).message n = (r.shift (m.buffer n)).setWord 0 (.ofNat 16 (header + 2 * count)) :=
    message_putLength ..
  have hsame (i : ℕ) (hi : i < 12) (hpos : 2 ≤ i) : (((({ m with mbx := r } : Mailbox).putLength n
      (header + 2 * count)).setControl n .outreq).message n) i = m.message n i := by
    rw [hmessage, ByteStore.setWord_of_outside _ (.inr (by omega))]
    exact hkept _ (by simp only [escMbxhsize]; omega)
  constructor
  case opcode => rw [hsame 8 (by omega) (by omega), hopcode]
  case length => rw [hmessage, ByteStore.word_setWord]
  case left =>
    rw [ByteStore.word, hsame 10 (by omega) (by omega), hsame 11 (by omega) (by omega)]
    exact hleft
  case indexes =>
    rw [hmessage, ← hwords]
    refine ByteStore.words_congr fun i _ => ?_
    rw [ByteStore.setWord_of_outside _ (.inr (by omega)), ByteStore.shift]
    congr 1
    omega

/-! ## Counting parts -/

/-- The number of parts that a list of `total` indexes is sent in. -/
def odFrags (total size : ℕ) : ℕ := (2 * total + size - 1) / size

/-- The number of indexes of part `p`, with room for `half` of them. -/
def odCount (total half p : ℕ) : ℕ := min half (total - p * half)

/-- A part comes after `p` others if those do not hold all indexes. -/
lemma lt_odFrags {total half p : ℕ} (hhalf : 0 < half) :
    p < odFrags total (2 * half) ↔ p * half < total := by
  rw [odFrags, Nat.lt_div_iff_mul_lt (by omega)]
  have hmul : p * (2 * half) = 2 * (p * half) := by
    rw [Nat.mul_left_comm]
  rw [hmul]
  omega

lemma odFrags_lt {total half : ℕ} (hhalf : 0 < half) (htotal : total < 2 ^ 16) :
    odFrags total (2 * half) < 2 ^ 16 := by
  by_contra hle
  have hlt : total < odFrags total (2 * half) := by omega
  rw [lt_odFrags hhalf] at hlt
  have hmul := Nat.le_mul_of_pos_right total hhalf
  omega

/-- Every part but the last is full. -/
lemma odCount_eq {total half p : ℕ} (hhalf : 0 < half) :
    odCount total half p = if p + 1 < odFrags total (2 * half) then half else total - p * half := by
  rw [odCount]
  by_cases hmore : p + 1 < odFrags total (2 * half)
  · rw [if_pos hmore]
    rw [lt_odFrags hhalf, Nat.succ_mul] at hmore
    omega
  · rw [if_neg hmore]
    rw [lt_odFrags hhalf, Nat.succ_mul] at hmore
    omega

/-- The next part continues the list. -/
lemma take_odCount {indexes : List Word} {half p : ℕ} :
    indexes.take (p * half) ++ (indexes.drop (p * half)).take (odCount indexes.length half p) =
      indexes.take ((p + 1) * half) := by
  rw [Nat.succ_mul, List.take_add, odCount]
  congr 1
  rcases Nat.le_total half (indexes.length - p * half) with hle | hle
  · rw [Nat.min_eq_left hle]
  · rw [Nat.min_eq_right hle, List.take_of_length_le, List.take_of_length_le]
    · rw [List.length_drop]
      exact hle
    · exact Nat.le_of_eq List.length_drop

/-- The indexes of the dictionary. -/
def Dictionary.indexes (dict : Dictionary) : List Word := dict.objects.map Objectlist.index

lemma Dictionary.length_indexes (dict : Dictionary) : dict.indexes.length = dict.objects.length :=
  List.length_map ..

lemma Dictionary.indexes_table (dict : Dictionary) {first count : ℕ}
    (h : first + count ≤ dict.objects.length) :
    ((dict.table.drop first).take count).map Objectlist.index =
      (dict.indexes.drop first).take count := by
  rw [Dictionary.table, List.drop_append_of_le_length (by omega),
    List.take_append_of_le_length (by rw [List.length_drop]; omega), Dictionary.indexes,
    List.map_take, List.map_drop]

/-! ## One part -/

/-- Part `p` of the list is sent: a buffer that was idle holds it, and unless more parts follow
the inbox is given back. -/
structure PartPosted (env : CoeEnv σ) (m m' : Mailbox) (half n header p : ℕ) : Prop where
  idle : m.IdleBuffer env.sys.opts n
  control : ∀ j, m'.control j = if j = n then .outreq
    else if j = 0 ∧ ¬ p + 1 < odFrags env.sys.dict.objects.length (2 * half) then .idle
    else m.control j
  xoe : m'.xoe =
    if p + 1 < odFrags env.sys.dict.objects.length (2 * half) then mbxcoe + mbxodl else 0
  part : m'.HoldsPart n header env.sys.dict.table (p * half)
    (odCount env.sys.dict.objects.length half p)
    (odFrags env.sys.dict.objects.length (2 * half) - 1 - p)
    (decide (¬ p + 1 < odFrags env.sys.dict.objects.length (2 * half)))
  entries : m'.entries = env.sys.dict.objects.length
  frags : m'.frags = odFrags env.sys.dict.objects.length (2 * half)
  fragsleft : m'.fragsleft = odFrags env.sys.dict.objects.length (2 * half) - 1 - p
  activemb1 : m'.activemb1 = m.activemb1

/-- `count` indexes are written behind a head, from address `dst` of the buffer on. -/
lemma coePutIndexes_stores {count i dst : ℕ} (h : i + count ≤ env.sys.dict.objects.length) :
    wp env k (coePutIndexes n count i dst) (fun _ c' => ∃ r : ByteStore,
      c' = { c with mb := { c.mb with mbx := r } } ∧
      r.words (c.mb.buffer n + dst) count =
        ((env.sys.dict.table.drop i).take count).map Objectlist.index ∧
      ∀ a, a < c.mb.buffer n + dst → r a = c.mb.mbx a) c := by
  have hroom : i + count ≤ env.sys.dict.table.length := by
    rw [Dictionary.table, List.length_append]
    omega
  obtain ⟨r, hr, hwords, hkept⟩ := putIndexes_stores hroom (c.mb.buffer n + dst) c.mb.mbx
  rw [coePutIndexes, wp_bind, wp_coeMb, wp_bind, wp_coeTable, wp_bind, wp_lift]
  exact ⟨r, hr, (wp_coeModifyMb _ _).mpr ⟨r, rfl, hwords, fun a ha => hkept a (.inl ha)⟩⟩

/-- The number of parts as `SDO_getodlist` computes it. -/
lemma odFrags_eq {total size : ℕ} (hsize : 0 < size) (hlt : size < 2 ^ 16)
    (htotal : total < 2 ^ 16) : sub32 (2 * total + size) 1 / size = odFrags total size := by
  have hsub : sub32 (2 * total + size) 1 = 2 * total + size - 1 := by
    simp only [sub32]
    omega
  rw [hsub, odFrags]

/-- All that is to be done once the head of part `p` is written. -/
structure PartBegun (env : CoeEnv σ) (m m' : Mailbox) (half n p : ℕ) : Prop where
  idle : m.IdleBuffer env.sys.opts n
  control : ∀ j, j ≠ n → m'.control j =
    if j = 0 ∧ ¬ p + 1 < odFrags env.sys.dict.objects.length (2 * half) then .idle
    else m.control j
  xoe : m'.xoe =
    if p + 1 < odFrags env.sys.dict.objects.length (2 * half) then mbxcoe + mbxodl else 0
  opcode : m'.message n 8 = coeGetodlistresponse |||
    if decide (¬ p + 1 < odFrags env.sys.dict.objects.length (2 * half)) then 0 else 0x80
  left : (m'.message n).word 10 =
    .ofNat 16 (odFrags env.sys.dict.objects.length (2 * half) - 1 - p)
  entries : m'.entries = env.sys.dict.objects.length
  frags : m'.frags = odFrags env.sys.dict.objects.length (2 * half)
  fragsleft : m'.fragsleft = odFrags env.sys.dict.objects.length (2 * half) - 1 - p
  activemb1 : m'.activemb1 = m.activemb1

/-- The indexes of part `p`, its length, and the buffer is posted. -/
lemma part_posts {m : Mailbox} {half header p length : ℕ} (hheader : 6 ≤ header)
    (hlength : BitVec.ofNat 16 length =
      .ofNat 16 (header + 2 * odCount env.sys.dict.objects.length half p))
    (hp : p * half ≤ env.sys.dict.objects.length) (h : PartBegun env m c.mb half n p) :
    wp env k (do
      coePutIndexes n (odCount env.sys.dict.objects.length half p) (p * half)
        (escMbxhsize + header)
      coeModifyMb fun m => m.putLength n length
      coeModifyMb fun m => m.setControl n .outreq)
      (fun _ c' => PartPosted env m c'.mb half n header p) c := by
  have hfits : p * half + odCount env.sys.dict.objects.length half p ≤
      env.sys.dict.objects.length := by
    rw [odCount]
    omega
  refine (coePutIndexes_stores hfits).bind fun _ c₁ ⟨r, hc₁, hwords, hkept⟩ => ?_
  subst hc₁
  rw [wp_bind, wp_coeModifyMb, wp_coeModifyMb]
  have hput : (({ c.mb with mbx := r } : Mailbox).putLength n length) =
      ({ c.mb with mbx := r } : Mailbox).putLength n
        (header + 2 * odCount env.sys.dict.objects.length half p) := by
    simp only [putLength, hlength]
  dsimp only
  rw [hput]
  constructor
  case idle => exact h.idle
  case control =>
    intro j
    show (if j = n then MbxState.outreq else c.mb.control j) = _
    by_cases hj : j = n
    · rw [if_pos hj, if_pos hj]
    · rw [if_neg hj, if_neg hj, h.control j hj]
  case xoe => exact h.xoe
  case part => exact holdsPart_written hheader h.opcode h.left hwords hkept
  case entries => exact h.entries
  case frags => exact h.frags
  case fragsleft => exact h.fragsleft
  case activemb1 => exact h.activemb1

/-- The first part. -/
lemma getodlistAll_posts {m : Mailbox} {half : ℕ} (hhalf : 0 < half)
    (hn : m.IdleBuffer env.sys.opts n) (hsize : c.mb.odlistsize = 2 * half)
    (hcontrol : ∀ j, j ≠ n → c.mb.control j = m.control j)
    (hactive : c.mb.activemb1 = m.activemb1)
    (hentries : c.mb.entries = env.sys.dict.objects.length)
    (hsome : 0 < env.sys.dict.objects.length) :
    wp env k (do
      getodlistAll n env.sys.dict.objects.length
        (odFrags env.sys.dict.objects.length (2 * half))
      coeModifyMb fun m => m.setControl n .outreq)
      (fun _ c' => PartPosted env m c'.mb half n 8 0) c := by
  have hfrags : 0 < odFrags env.sys.dict.objects.length (2 * half) := by
    rw [lt_odFrags hhalf, Nat.zero_mul]
    exact hsome
  have hleft : sub32 (odFrags env.sys.dict.objects.length (2 * half)) 1 =
      odFrags env.sys.dict.objects.length (2 * half) - 1 - 0 := by
    have hlt := odFrags_lt hhalf env.sys.dict.length_lt
    simp only [sub32]
    omega
  have hcount := @odCount_eq env.sys.dict.objects.length half 0 hhalf
  rw [Nat.zero_add, Nat.zero_mul, Nat.sub_zero] at hcount
  have hposts (c₁ : Coe σ) (h : PartBegun env m c₁.mb half n 0) := @part_posts σ env k n c₁ m half 8
    0 (8 + 2 * odCount env.sys.dict.objects.length half 0) (by omega) rfl (by omega) h
  rw [Nat.zero_mul] at hposts
  have hput (incomplete : Bool) (left : ℕ) :=
    message_putInfo (n := n) c.mb coeGetodlistresponse incomplete left
  rw [getodlistAll, hleft]
  simp only [bind_assoc]
  rw [wp_bind, wp_coeMb, wp_bind, wp_coeModifyMb]
  by_cases hmore : 1 < odFrags env.sys.dict.objects.length (2 * half)
  · rw [if_pos hmore] at hcount
    have hhalf' : c.mb.odlistsize / 2 = odCount env.sys.dict.objects.length half 0 := by
      rw [hcount, hsize]
      omega
    rw [if_pos hmore, bind_assoc, wp_bind, wp_coeModifyMb, pure_bind, wp_bind, wp_coeModifyMb,
      hhalf']
    refine hposts _ ⟨hn, fun j hj => ?_, ?_, ?_, ?_, hentries, rfl, rfl, hactive⟩
    · rw [if_neg fun h => h.2 hmore]
      exact hcontrol j hj
    · exact (if_pos hmore).symm
    · refine (message_putType _ _).1.trans ((hput _ _).1.trans ?_)
      rw [decide_eq_true hmore, decide_eq_false (not_not.mpr hmore)]
      rfl
    · exact (message_putType _ _).2.trans (hput _ _).2
  · rw [if_neg hmore] at hcount
    rw [hcount] at hposts
    rw [if_neg hmore, bind_assoc, wp_bind, wp_coeModifyMb, pure_bind, wp_bind, wp_coeModifyMb]
    refine hposts _ ⟨hn, fun j hj => ?_, ?_, ?_, ?_, hentries, rfl, rfl, hactive⟩
    · show (if j = 0 then MbxState.idle else c.mb.control j) = _
      by_cases hzero : j = 0
      · rw [if_pos hzero, if_pos ⟨hzero, hmore⟩]
      · rw [if_neg hzero, if_neg fun h => hzero h.1]
        exact hcontrol j hj
    · exact (if_neg hmore).symm
    · refine (message_putType _ _).1.trans ((hput _ _).1.trans ?_)
      rw [decide_eq_false hmore, decide_eq_true hmore]
      rfl
    · exact (message_putType _ _).2.trans (hput _ _).2

/-- `SDO_getodlist` counts the objects and claims a buffer for the answer. -/
lemma wp_sdoGetodlist {half : ℕ} {Q : Unit → Coe σ → Prop} (hhalf : 0 < half)
    (hsize : c.mb.odlistsize = 2 * half) (hidle : c.mb.ReplyIdle env.sys.opts)
    (htype : ¬ 1 < c.mb.infoIndex)
    (hQ : ∀ n, c.mb.IdleBuffer env.sys.opts n → wp env k (do
      if c.mb.infoIndex = 0 then
        getodlistCount n env.sys.dict.objects.length
          (odFrags env.sys.dict.objects.length (2 * half))
      else
        getodlistAll n env.sys.dict.objects.length
          (odFrags env.sys.dict.objects.length (2 * half))
      coeModifyMb fun m => m.setControl n .outreq) Q
      ⟨c.outside, Mailbox.claim { c.mb with entries := env.sys.dict.objects.length } n, c.mem⟩) :
    wp env k sdoGetodlist Q c := by
  have hcount := countObjects_length env.sys.dict.below_sentinel env.sys.dict.length_lt
  have hindex : Mailbox.infoIndex { c.mb with entries := env.sys.dict.objects.length } =
      c.mb.infoIndex := rfl
  have hlt := c.mb.odlistsize_lt
  rw [sdoGetodlist, wp_bind, wp_coeTable, wp_bind, wp_lift]
  refine ⟨_, hcount, ?_⟩
  rw [wp_bind, wp_coeModifyMb, wp_bind, wp_coeMb]
  refine (wp_ite _ _ _ _).mpr ⟨fun hzero => ?_, fun _ => ?_⟩
  · rw [odlistsize_entries, hsize] at hzero
    omega
  refine (wp_ite _ _ _ _).mpr ⟨fun hlarge => (htype (hindex ▸ hlarge)).elim, fun _ => ?_⟩
  refine wp_claim_idle hidle fun n hn => ?_
  rw [when, if_pos (Nat.pos_iff_ne_zero.mp hn.1), odlistsize_entries,
    odFrags_eq (by omega) hlt env.sys.dict.length_lt, hsize, hindex]
  exact hQ n hn

/-- `SDO_getodlist`, for the list of all objects. -/
lemma sdoGetodlist_posts {half : ℕ} (hhalf : 0 < half) (hsize : c.mb.odlistsize = 2 * half)
    (hsome : 0 < env.sys.dict.objects.length) (hidle : c.mb.ReplyIdle env.sys.opts)
    (hindex : c.mb.infoIndex = 1) :
    wp env k sdoGetodlist (fun _ c' => ∃ n, PartPosted env c.mb c'.mb half n 8 0) c := by
  refine wp_sdoGetodlist hhalf hsize hidle (by rw [hindex]; decide) fun n hn => ?_
  rw [hindex, if_neg (by decide)]
  have hall := getodlistAll_posts (k := k) (m := c.mb) (c := ⟨c.outside,
      Mailbox.claim { c.mb with entries := env.sys.dict.objects.length } n, c.mem⟩)
    hhalf hn hsize (fun j hj => if_neg hj) rfl rfl hsome
  exact hall.mono fun _ c' hposted => ⟨n, hposted⟩

/-- The parts that are left are counted down behind the head. -/
lemma PartBegun.counted {m b : Mailbox} {half p l : ℕ} (h : PartBegun env m
    { b with fragsleft := odFrags env.sys.dict.objects.length (2 * half) - 1 - p } half n p)
    (hl : l = odFrags env.sys.dict.objects.length (2 * half) - 1 - p) :
    PartBegun env m { b with fragsleft := l } half n p := by
  rw [hl]
  exact h

/-- `SDO_getodlistcont`, for part `p`. -/
lemma sdoGetodlistcont_posts {half p : ℕ} (hhalf : 0 < half) (hsize : c.mb.odlistsize = 2 * half)
    (hidle : c.mb.ReplyIdle env.sys.opts) (hpos : 0 < p)
    (hp : p < odFrags env.sys.dict.objects.length (2 * half))
    (hentries : c.mb.entries = env.sys.dict.objects.length)
    (hfrags : c.mb.frags = odFrags env.sys.dict.objects.length (2 * half))
    (hfragsleft : c.mb.fragsleft = odFrags env.sys.dict.objects.length (2 * half) - p)
    (hxoe : c.mb.xoe = mbxcoe + mbxodl) :
    wp env k sdoGetodlistcont (fun _ c' => ∃ n, PartPosted env c.mb c'.mb half n 6 p) c := by
  have htotal := env.sys.dict.length_lt
  have hF := odFrags_lt hhalf htotal
  have hstart := (lt_odFrags hhalf).mp hp
  have hleft : sub32 c.mb.fragsleft 1 =
      odFrags env.sys.dict.objects.length (2 * half) - 1 - p := by
    rw [hfragsleft]
    simp only [sub32]
    omega
  have hcount := @odCount_eq env.sys.dict.objects.length half p hhalf
  have hlength : BitVec.ofNat 16 (6 + 2 * (p * half +
      odCount env.sys.dict.objects.length half p + 2 ^ 16 - p * half)) =
      .ofNat 16 (6 + 2 * odCount env.sys.dict.objects.length half p) := by
    refine BitVec.eq_of_toNat_eq ?_
    rw [BitVec.toNat_ofNat, BitVec.toNat_ofNat]
    omega
  rw [sdoGetodlistcont]
  refine wp_claim_idle hidle fun n hn => ?_
  have hposts (c₁ : Coe σ) (h : PartBegun env c.mb c₁.mb half n p) :=
    (@part_posts σ env k n c₁ c.mb half 6 p _ (by omega) hlength (by omega) h).mono
      fun _ c' hposted => (⟨n, hposted⟩ : ∃ n, PartPosted env c.mb c'.mb half n 6 p)
  rw [when, if_pos (Nat.pos_iff_ne_zero.mp hn.1), wp_bind, wp_coeMb]
  extract_lets room s last e
  have hroom : room = half := by
    show c.mb.odlistsize / 2 = half
    omega
  have hs : s = p * half := by
    have hsub : sub32 c.mb.frags c.mb.fragsleft = p := by
      rw [hfrags, hfragsleft]
      simp only [sub32]
      omega
    show sub32 c.mb.frags c.mb.fragsleft * room % 2 ^ 16 = p * half
    rw [hsub, hroom, Nat.mod_eq_of_lt (by omega)]
  have hlast : last ↔ ¬ p + 1 < odFrags env.sys.dict.objects.length (2 * half) := by
    show c.mb.fragsleft ≤ 1 ↔ _
    rw [hfragsleft]
    omega
  have he : e = p * half + odCount env.sys.dict.objects.length half p := by
    by_cases hmore : p + 1 < odFrags env.sys.dict.objects.length (2 * half)
    · have hnext := (lt_odFrags hhalf).mp hmore
      rw [Nat.succ_mul] at hnext
      refine (if_neg fun h => hlast.mp h hmore).trans ?_
      rw [hs, hroom, hcount, if_pos hmore, Nat.mod_eq_of_lt (by omega)]
    · refine (if_pos (hlast.mpr hmore)).trans (hentries.trans ?_)
      rw [hcount, if_neg hmore]
      omega
  have hclaim : sub32 (c.mb.claim n).fragsleft 1 =
      odFrags env.sys.dict.objects.length (2 * half) - 1 - p := hleft
  rw [hs, he, Nat.add_sub_cancel_left, wp_bind, wp_coeModifyMb, wp_bind]
  by_cases hmore : p + 1 < odFrags env.sys.dict.objects.length (2 * half)
  · have hnotlast : ¬ last := fun h => hlast.mp h hmore
    have hput := message_putInfo (n := n) (c.mb.claim n) coeGetodlistresponse (decide (¬ last))
      (sub32 (c.mb.claim n).fragsleft 1)
    rw [when, if_neg hnotlast, wp_pure, wp_bind, wp_coeModifyMb]
    refine hposts _ (PartBegun.counted (b := (c.mb.claim n).putInfo n coeGetodlistresponse
      (decide (¬ last)) (sub32 (c.mb.claim n).fragsleft 1)) ?_ hclaim)
    refine ⟨hn, fun j hj => ?_, ?_, ?_, ?_, hentries, hfrags, rfl, rfl⟩
    · rw [if_neg fun h => h.2 hmore]
      exact if_neg hj
    · exact hxoe.trans (if_pos hmore).symm
    · refine hput.1.trans ?_
      rw [decide_eq_true hnotlast, decide_eq_false (not_not.mpr hmore)]
      rfl
    · refine hput.2.trans ?_
      rw [hclaim]
  · have hislast : last := hlast.mpr hmore
    have hput := message_putInfo (n := n) (c.mb.claim n) coeGetodlistresponse (decide (¬ last))
      (sub32 (c.mb.claim n).fragsleft 1)
    rw [when, if_pos hislast, wp_coeModifyMb, wp_bind, wp_coeModifyMb]
    refine hposts _ (PartBegun.counted (b := ((c.mb.claim n).putInfo n coeGetodlistresponse
      (decide (¬ last)) (sub32 (c.mb.claim n).fragsleft 1)).release) ?_ hclaim)
    refine ⟨hn, fun j hj => ?_, ?_, ?_, ?_, hentries, hfrags, rfl, rfl⟩
    · show (if j = 0 then MbxState.idle else if j = n then _ else c.mb.control j) = _
      by_cases hzero : j = 0
      · rw [if_pos hzero, if_pos ⟨hzero, hmore⟩]
      · rw [if_neg hzero, if_neg hj, if_neg fun h => hzero h.1]
    · exact (if_neg hmore).symm
    · refine hput.1.trans ?_
      rw [decide_eq_false (not_not.mpr hislast), decide_eq_true hmore]
      rfl
    · refine hput.2.trans ?_
      rw [hclaim]

/-! ## The whole list -/

/-- A request for a list of objects is in the inbox, and is taken from it. -/
structure AsksList (opts : Options) (m : Mailbox) (type : Word) : Prop where
  accepted : CoeAccepted opts m
  service : m.service = coeSdoinformation
  opcode : m.infoOpcode = 0x01
  type : m.infoIndex = type

/-- `ESC_coeprocess` hands a request for a list on. -/
lemma wp_escCoeprocess_list {type : Word} {Q : Unit → Coe σ → Prop}
    (h : AsksList env.sys.opts c.mb type)
    (hQ : wp env k sdoGetodlist Q ⟨c.outside, c.mb.taken, c.mem⟩) :
    wp env k escCoeprocess Q c := by
  refine wp_escCoeprocess_accepted h.accepted ?_
  refine (wp_ite _ _ _ _).mpr ⟨fun hsdo => ?_, fun _ => ?_⟩
  · exact absurd (h.service.symm.trans hsdo.1) (by decide)
  refine (wp_ite _ _ _ _).mpr ⟨fun hsdo => ?_, fun _ => ?_⟩
  · exact absurd (h.service.symm.trans hsdo) (by decide)
  exact (wp_ite _ _ _ _).mpr ⟨fun _ => hQ, fun hno => (hno ⟨h.service, h.opcode⟩).elim⟩

/-- The first pass. -/
lemma escCoeprocess_lists {half : ℕ} (hhalf : 0 < half) (hsize : c.mb.odlistsize = 2 * half)
    (hsome : 0 < env.sys.dict.objects.length) (h : AsksList env.sys.opts c.mb 1) :
    wp env k escCoeprocess (fun _ c' => ∃ n, PartPosted env c.mb c'.mb half n 8 0) c := by
  refine wp_escCoeprocess_list h ?_
  have hposts : wp env k sdoGetodlist _ ⟨c.outside, c.mb.taken, c.mem⟩ :=
    sdoGetodlist_posts hhalf hsize hsome h.accepted.idle h.type
  exact hposts.mono fun _ c' ⟨n, h₁⟩ => ⟨n, h₁.idle, h₁.control, h₁.xoe, h₁.part, h₁.entries,
    h₁.frags, h₁.fragsleft, h₁.activemb1⟩

/-- Between two passes the list stays as it is. -/
structure ListResumes (c c' : Coe σ) : Prop where
  xoe : c'.mb.xoe = c.mb.xoe
  entries : c'.mb.entries = c.mb.entries
  frags : c'.mb.frags = c.mb.frags
  fragsleft : c'.mb.fragsleft = c.mb.fragsleft
  activemb1 : c'.mb.activemb1 = c.mb.activemb1

/-- `ESC_mbxprocess` leaves the list as it is, whatever it reads or posts between two parts. -/
lemma escMbxprocess_listResumes {sys : System σ} {w : World σ} {o o' : σ} :
    wlp sys k escMbxprocess (fun _ w' => ListResumes ⟨o, w.mb, w.mem⟩ ⟨o', w'.mb, w'.mem⟩) w := by
  refine (escMbxprocess_keepsTransfer sys k w).mono fun _ w' hkept => ?_
  constructor
  case xoe => exact congrArg Prod.fst hkept.list
  case entries => exact congrArg (fun x => x.2.1) hkept.list
  case frags => exact congrArg Transfer.frags hkept.transfer
  case fragsleft => exact congrArg Transfer.fragsleft hkept.transfer
  case activemb1 => exact congrArg (fun x => x.2.2) hkept.list

/-- The part before was posted and read, and there is a buffer for the next one. -/
structure AllPosted (opts : Options) (m : Mailbox) : Prop where
  run : m.mbxRun = true
  posted : m.mbxoutpost = 0
  idle : m.ReplyIdle opts

/-- A pass after the first one. -/
lemma escCoeprocess_continues {half p : ℕ} (hhalf : 0 < half) (hsize : c.mb.odlistsize = 2 * half)
    (hposted : AllPosted env.sys.opts c.mb) (hpos : 0 < p)
    (hp : p < odFrags env.sys.dict.objects.length (2 * half))
    (hentries : c.mb.entries = env.sys.dict.objects.length)
    (hfrags : c.mb.frags = odFrags env.sys.dict.objects.length (2 * half))
    (hfragsleft : c.mb.fragsleft = odFrags env.sys.dict.objects.length (2 * half) - p)
    (hxoe : c.mb.xoe = mbxcoe + mbxodl) :
    wp env k escCoeprocess (fun _ c' => ∃ n, PartPosted env c.mb c'.mb half n 6 p) c := by
  have hnew : ¬ (c.mb.xoe = 0 ∧ c.mb.control 0 = .inclaim ∧ c.mb.mbxtype 0 = mbxcoe) := by
    rw [hxoe]
    exact fun h => absurd h.1 (by decide)
  rw [escCoeprocess, wp_bind, wp_coeMb, when, if_pos hposted.run, wp_bind, wp_coeMb, wp_bind, when,
    if_neg hnew, wp_pure, wp_bind, wp_coeMb, wp_bind, when, if_pos ⟨hxoe, hposted.posted⟩]
  refine (sdoGetodlistcont_posts hhalf hsize hposted.idle hpos hp hentries hfrags hfragsleft
    hxoe).mono fun _ c₁ hthen => ?_
  obtain ⟨n, h₁⟩ := hthen
  have hdone : ¬ c₁.mb.xoe = mbxcoe := by
    rw [h₁.xoe]
    by_cases hmore : p + 1 < odFrags env.sys.dict.objects.length (2 * half)
    · rw [if_pos hmore]
      decide
    · rw [if_neg hmore]
      decide
  rw [wp_bind, wp_coeMb, when, if_neg hdone, wp_pure]
  exact ⟨n, h₁⟩

/-- The number of objects is answered by one reply, and the parts of the list are reckoned. -/
structure Counted (env : CoeEnv σ) (m m' : Mailbox) (half n : ℕ) : Prop where
  queued : ∀ j, m.HasQueued env.sys.opts m' j ↔ j = n
  count : (m'.message n).word 14 = .ofNat 16 env.sys.dict.objects.length
  frags : m'.frags = odFrags env.sys.dict.objects.length (2 * half)

lemma getodlistCount_counts {m : Mailbox} {half : ℕ} (hn : m.IdleBuffer env.sys.opts n)
    (hcontrol : ∀ j, j ≠ n → c.mb.control j = m.control j) :
    wp env k (do
      getodlistCount n env.sys.dict.objects.length
        (odFrags env.sys.dict.objects.length (2 * half))
      coeModifyMb fun m => m.setControl n .outreq)
      (fun _ c' => Counted env m c'.mb half n) c := by
  simp only [getodlistCount, wp_bind, wp_coeModifyMb]
  refine ⟨fun j => ⟨?_, ?_⟩, ?_, rfl⟩
  · rintro ⟨hidle, hout⟩
    by_contra hne
    have hpos : j ≠ 0 := Nat.pos_iff_ne_zero.mp hidle.1
    change (if j = n then MbxState.outreq else if j = 0 then .idle else c.mb.control j) = _ at hout
    rw [if_neg hne, if_neg hpos, hcontrol j hne, hidle.2.2] at hout
    cases hout
  · rintro rfl
    exact ⟨hn, if_pos rfl⟩
  · simp only [message, setControl, putLength, putWord, updateMbx, buffer,
      ByteStore.shift_setWord, ByteStore.shift_setWord_start]
    rw [ByteStore.word_setWord_of_disjoint _ (by omega),
      ByteStore.word_setWord_of_disjoint _ (by omega),
      ByteStore.word_setWord_of_disjoint _ (by omega),
      ByteStore.word_setWord_of_disjoint _ (by omega),
      ByteStore.word_setWord_of_disjoint _ (by omega), ByteStore.word_setWord]

/-- A request for the number of objects. -/
lemma escCoeprocess_counts {half : ℕ} (hhalf : 0 < half) (hsize : c.mb.odlistsize = 2 * half)
    (h : AsksList env.sys.opts c.mb 0) :
    wp env k escCoeprocess (fun _ c' => ∃ n, Counted env c.mb c'.mb half n) c := by
  refine wp_escCoeprocess_list h ?_
  have hindex : c.mb.taken.infoIndex = 0 := h.type
  refine wp_sdoGetodlist hhalf hsize h.accepted.idle (fun hlt => ?_) fun n hn => ?_
  · have hlt' : 1 < c.mb.taken.infoIndex := hlt
    rw [hindex] at hlt'
    exact absurd hlt' (by decide)
  · have hzero : Mailbox.infoIndex (Coe.mb ⟨c.outside, c.mb.taken, c.mem⟩) = 0 := hindex
    rw [if_pos hzero]
    have hcounts := @getodlistCount_counts σ env k n ⟨c.outside,
      Mailbox.claim { c.mb.taken with entries := env.sys.dict.objects.length } n, c.mem⟩
      c.mb half hn (fun j hj => if_neg hj)
    exact hcounts.mono fun _ c' hcounted => ⟨n, hcounted⟩

/-- The number of indexes that a part has room for, in mailboxes of this size. -/
def odRoom (size : Word) : ℕ := (size.toNat - 14) / 2

lemma odRoom_pos {size : Word} (hsize : 16 ≤ size.toNat) : 0 < odRoom size := by
  simp only [odRoom]
  omega

lemma odlistsize_eq {m : Mailbox} {size : Word} (hsize : 16 ≤ size.toNat)
    (hm : m.activemb1.sml = size) : m.odlistsize = 2 * odRoom size := by
  have hlt := size.isLt
  rw [odlistsize, hm]
  simp only [sub32, escMbxhsize, odRoom]
  omega

/-- The number of parts of the dictionary's list, in mailboxes of this size. -/
def Dictionary.odParts (dict : Dictionary) (size : Word) : ℕ :=
  odFrags dict.objects.length (2 * odRoom size)

/-- A list being sent: the first pass and any number of passes after it, each with what was
posted before it read, and the parts they have queued. -/
inductive ListRun (env : CoeEnv σ) (size : Word) : List ListPart → Coe σ → Prop where
  /-- The first part. -/
  | first {c c' : Coe σ} {n : ℕ} (asks : AsksList env.sys.opts c.mb 1)
      (active : c.mb.activemb1.sml = size) (pass : PassesTo env c c')
      (queued : c.mb.HasQueued env.sys.opts c'.mb n) : ListRun env size [c'.mb.listPart n 8] c'
  /-- Another part. -/
  | next {parts : List ListPart} {c₀ c c' : Coe σ} {n : ℕ} (run : ListRun env size parts c₀)
      (going : c₀.mb.xoe = mbxcoe + mbxodl) (resumes : ListResumes c₀ c)
      (posted : AllPosted env.sys.opts c.mb) (pass : PassesTo env c c')
      (queued : c.mb.HasQueued env.sys.opts c'.mb n) :
      ListRun env size (parts ++ [c'.mb.listPart n 6]) c'

/-- What the parts of a list say. -/
structure ListsObjects (dict : Dictionary) (size : Word) (parts : List ListPart) (m : Mailbox) :
    Prop where
  le : parts.length ≤ dict.odParts size
  /-- The indexes are those of the dictionary, in its order, from the first one on. -/
  indexes : parts.flatMap ListPart.indexes = dict.indexes.take (parts.length * odRoom size)
  /-- Every part is an answer that fits the mailbox, counts down, and says whether it is the
  last. -/
  fields : ∀ j part, parts[j]? = some part →
    part.opcode = coeGetodlistresponse ∧
      part.fragmentsleft.toNat + (j + 1) = dict.odParts size ∧
      part.incomplete = decide (j + 1 < dict.odParts size) ∧
      escMbxhsize + part.length.toNat ≤ size.toNat
  going : parts.length < dict.odParts size → m.xoe = mbxcoe + mbxodl
  /-- Then it is complete, and the inbox is given back. -/
  done : parts.length = dict.odParts size →
    parts.flatMap ListPart.indexes = dict.indexes ∧ m.Free

/-- The state of a list between two parts. -/
structure Listing (dict : Dictionary) (size : Word) (parts : List ListPart) (m : Mailbox) :
    Prop where
  lists : ListsObjects dict size parts m
  pos : 0 < parts.length
  entries : m.entries = dict.objects.length
  frags : m.frags = dict.odParts size
  fragsleft : m.fragsleft = dict.odParts size - parts.length
  active : m.activemb1.sml = size

/-- The buffer of a part is the only one that is queued. -/
lemma PartPosted.hasQueued_iff {m m' : Mailbox} {half header p : ℕ}
    (h : PartPosted env m m' half n header p) (j : ℕ) :
    m.HasQueued env.sys.opts m' j ↔ j = n := by
  constructor
  · rintro ⟨hidle, hout⟩
    by_contra hne
    have hpos : j ≠ 0 := Nat.pos_iff_ne_zero.mp hidle.1
    rw [h.control j, if_neg hne, if_neg fun h => hpos h.1, hidle.2.2] at hout
    cases hout
  · rintro rfl
    exact ⟨h.idle, by rw [h.control j, if_pos rfl]⟩

/-- What is read from a part that was sent. -/
lemma PartPosted.listPart_eq {m m' : Mailbox} {size : Word} {header p : ℕ} (hsize : 16 ≤ size.toNat)
    (hheader : header ≤ 8) (hp : p < env.sys.dict.odParts size)
    (h : PartPosted env m m' (odRoom size) n header p) :
    m'.listPart n header =
      { opcode := coeGetodlistresponse
        length := .ofNat 16 (header + 2 * odCount env.sys.dict.objects.length (odRoom size) p)
        incomplete := decide (p + 1 < env.sys.dict.odParts size)
        fragmentsleft := .ofNat 16 (env.sys.dict.odParts size - 1 - p)
        indexes := (env.sys.dict.indexes.drop (p * odRoom size)).take
          (odCount env.sys.dict.indexes.length (odRoom size) p) } := by
  have hlt := size.isLt
  have hstart := (lt_odFrags (odRoom_pos hsize)).mp hp
  have hcount : odCount env.sys.dict.objects.length (odRoom size) p ≤ odRoom size :=
    Nat.min_le_left ..
  have hfits : p * odRoom size + odCount env.sys.dict.objects.length (odRoom size) p ≤
      env.sys.dict.objects.length := by
    rw [odCount]
    omega
  have hroom : 14 + 2 * odRoom size ≤ size.toNat := by
    simp only [odRoom]
    omega
  rw [h.part.listPart_eq (by omega), env.sys.dict.indexes_table hfits,
    env.sys.dict.length_indexes]
  simp only [Dictionary.odParts, decide_not, Bool.not_not]
  congr

/-- Part `p` is added to the list. -/
lemma Listing.add {size : Word} (hsize : 16 ≤ size.toNat) {parts : List ListPart} {m m' : Mailbox}
    {header : ℕ} (hheader : header ≤ 8)
    (hlists : parts.flatMap ListPart.indexes =
      env.sys.dict.indexes.take (parts.length * odRoom size))
    (hfields : ∀ j part, parts[j]? = some part →
      part.opcode = coeGetodlistresponse ∧
        part.fragmentsleft.toNat + (j + 1) = env.sys.dict.odParts size ∧
        part.incomplete = decide (j + 1 < env.sys.dict.odParts size) ∧
        escMbxhsize + part.length.toNat ≤ size.toNat)
    (hp : parts.length < env.sys.dict.odParts size) (hactive : m.activemb1.sml = size)
    (h : PartPosted env m m' (odRoom size) n header parts.length) :
    Listing env.sys.dict size (parts ++ [m'.listPart n header]) m' := by
  have hhalf := odRoom_pos hsize
  have hpart := h.listPart_eq hsize hheader hp
  have hF := odFrags_lt hhalf env.sys.dict.length_lt
  have hlength : (parts ++ [m'.listPart n header]).length = parts.length + 1 := List.length_append
  have hall : (parts ++ [m'.listPart n header]).flatMap ListPart.indexes =
      env.sys.dict.indexes.take ((parts.length + 1) * odRoom size) := by
    rw [List.flatMap_append, hlists, List.flatMap_singleton, hpart]
    exact take_odCount
  have hxoe := h.xoe
  refine ⟨⟨?_, ?_, fun j part hj => ?_, fun hmore => ?_, fun hdone => ?_⟩, ?_, h.entries,
    h.frags, ?_, ?_⟩
  · omega
  · rw [hlength]
    exact hall
  · rcases Nat.lt_or_ge j parts.length with hold | hnew
    · rw [List.getElem?_append_left hold] at hj
      exact hfields j part hj
    · rw [List.getElem?_append_right hnew] at hj
      have hzero : j - parts.length = 0 := by
        by_contra hne
        rw [List.getElem?_eq_none (by rw [List.length_singleton]; omega)] at hj
        cases hj
      have hjp : j = parts.length := by omega
      rw [hzero] at hj
      obtain rfl := Option.some.inj hj
      subst hjp
      rw [hpart]
      refine ⟨rfl, ?_, rfl, ?_⟩
      · dsimp only
        rw [BitVec.toNat_ofNat, Nat.mod_eq_of_lt (by rw [Dictionary.odParts]; omega)]
        omega
      · have hcount : odCount env.sys.dict.objects.length (odRoom size) parts.length ≤
            odRoom size := Nat.min_le_left ..
        have hroom : 14 + 2 * odRoom size ≤ size.toNat := by
          simp only [odRoom]
          omega
        dsimp only
        have hlt := size.isLt
        rw [BitVec.toNat_ofNat, Nat.mod_eq_of_lt (by omega)]
        simp only [escMbxhsize]
        omega
  · rw [hlength] at hmore
    exact hxoe.trans (if_pos hmore)
  · rw [hlength] at hdone
    have hnot : ¬ parts.length + 1 < env.sys.dict.odParts size := by omega
    refine ⟨?_, ?_, hxoe.trans (if_neg hnot)⟩
    · rw [hall, List.take_of_length_le]
      rw [env.sys.dict.length_indexes]
      by_contra hshort
      exact hnot ((lt_odFrags hhalf).mpr (Nat.not_le.mp hshort))
    · rw [h.control 0, if_neg (Nat.ne_of_lt h.idle.1), if_pos ⟨rfl, hnot⟩]
  · omega
  · rw [hlength]
    exact h.fragsleft.trans (by rw [Dictionary.odParts]; omega)
  · rw [h.activemb1]
    exact hactive

/-- A list being sent is in order. -/
lemma ListRun.listing {size : Word} (hsize : 16 ≤ size.toNat)
    (hsome : 0 < env.sys.dict.objects.length) {parts : List ListPart}
    (h : ListRun env size parts c) : Listing env.sys.dict size parts c.mb := by
  have hhalf := odRoom_pos hsize
  induction h with
  | @first c c' n asks active pass queued =>
      have hroom := odlistsize_eq hsize active
      have hposts := pass.of_wp fun k => escCoeprocess_lists (k := k) hhalf hroom hsome asks
      obtain ⟨n', hposted⟩ := hposts
      obtain rfl := (hposted.hasQueued_iff n).mp queued
      refine @Listing.add σ env n size hsize [] c.mb c'.mb 8 (Nat.le_refl 8) ?_ ?_ ?_ active hposted
      · rw [List.length_nil, Nat.zero_mul, List.take_zero]
        rfl
      · intro j part hj
        cases hj
      · rw [Dictionary.odParts, lt_odFrags hhalf, List.length_nil, Nat.zero_mul]
        exact hsome
  | @next parts c₀ c c' n run going resumes posted pass queued ih =>
      have hmore : parts.length < env.sys.dict.odParts size := by
        refine Nat.lt_of_le_of_ne ih.lists.le fun hall => ?_
        rw [(ih.lists.done hall).2.2] at going
        exact absurd going (by decide)
      have hactive : c.mb.activemb1.sml = size := by
        rw [resumes.activemb1]
        exact ih.active
      have hroom := odlistsize_eq hsize hactive
      obtain ⟨n', hposted⟩ := pass.of_wp fun k => escCoeprocess_continues (k := k) hhalf hroom
        posted ih.pos hmore (resumes.entries.trans ih.entries) (resumes.frags.trans ih.frags)
        (resumes.fragsleft.trans ih.fragsleft) (resumes.xoe.trans going)
      obtain rfl := (hposted.hasQueued_iff n).mp queued
      exact Listing.add hsize (by omega) ih.lists.indexes ih.lists.fields hmore hactive hposted

/-- How the list is sent, in mailboxes of this size. -/
structure SendsList (env : CoeEnv σ) (size : Word) : Prop where
  /-- The number of objects is answered, with the number of parts reckoned. -/
  counts : ∀ c, AsksList env.sys.opts c.mb 0 → c.mb.activemb1.sml = size →
    ∃ c' n, PassesTo env c c' ∧ (∀ j, c.mb.HasQueued env.sys.opts c'.mb j ↔ j = n) ∧
      (c'.mb.message n).word 14 = .ofNat 16 env.sys.dict.objects.length ∧
      c'.mb.frags = env.sys.dict.odParts size
  /-- A request for the list is answered with one part. -/
  begins : ∀ c, AsksList env.sys.opts c.mb 1 → c.mb.activemb1.sml = size →
    ∃ c' n, PassesTo env c c' ∧ ∀ j, c.mb.HasQueued env.sys.opts c'.mb j ↔ j = n
  lists : ∀ parts c, ListRun env size parts c → ListsObjects env.sys.dict size parts c.mb
  /-- One more part can be sent until there are as many as were reckoned. -/
  continues : ∀ parts c, ListRun env size parts c → parts.length < env.sys.dict.odParts size →
    ∀ c', ListResumes c c' → AllPosted env.sys.opts c'.mb →
      ∃ c'' n, PassesTo env c' c'' ∧ ∀ j, c'.mb.HasQueued env.sys.opts c''.mb j ↔ j = n

/-- **The list of objects is complete**: when as many parts are sent as were reckoned, they hold the
index of every object, in the order of the dictionary, and the inbox is given back. -/
theorem od_list_complete {size : Word} (hsize : 16 ≤ size.toNat)
    (hsome : 0 < env.sys.dict.objects.length) : SendsList env size := by
  have hhalf := odRoom_pos hsize
  constructor
  case counts =>
    intro c asks active
    obtain ⟨_, c', hrun, n, hcounted⟩ :=
      escCoeprocess_counts (k := 0) hhalf (odlistsize_eq hsize active) asks
    exact ⟨c', n, ⟨0, hrun⟩, hcounted.queued, hcounted.count, hcounted.frags⟩
  case begins =>
    intro c asks active
    obtain ⟨_, c', hrun, n, hposted⟩ :=
      escCoeprocess_lists (k := 0) hhalf (odlistsize_eq hsize active) hsome asks
    exact ⟨c', n, ⟨0, hrun⟩, hposted.hasQueued_iff⟩
  case lists => exact fun parts c run => (run.listing hsize hsome).lists
  case continues =>
    intro parts c run hmore c' resumes posted
    have hlisting := run.listing hsize hsome
    have hactive : c'.mb.activemb1.sml = size := by
      rw [resumes.activemb1]
      exact hlisting.active
    obtain ⟨_, c'', hrun, n, hposted⟩ := escCoeprocess_continues (k := 0) hhalf
      (odlistsize_eq hsize hactive) posted hlisting.pos hmore
      (resumes.entries.trans hlisting.entries) (resumes.frags.trans hlisting.frags)
      (resumes.fragsleft.trans hlisting.fragsleft)
      (resumes.xoe.trans (hlisting.lists.going hmore))
    exact ⟨c'', n, ⟨0, hrun⟩, hposted.hasQueued_iff⟩

/-- A state in which the next part can be sent: what was posted is read, and all reply buffers are
idle. -/
def Coe.posted (c : Coe σ) : Coe σ :=
  { c with mb := { c.mb with
    mbxRun := true, mbxoutpost := 0
    control := fun n => if n = 0 then c.mb.control 0 else .idle } }

/-- A list that was asked for can be sent to its end, if the master reads every part. -/
lemma SendsList.completes {size : Word} (h : SendsList env size) {c : Coe σ}
    (asks : AsksList env.sys.opts c.mb 1) (active : c.mb.activemb1.sml = size) {p : ℕ}
    (hpos : 1 ≤ p) (hle : p ≤ env.sys.dict.odParts size) :
    ∃ parts c', ListRun env size parts c' ∧ parts.length = p := by
  induction p, hpos using Nat.le_induction with
  | base =>
      obtain ⟨c', n, pass, queued⟩ := h.begins c asks active
      exact ⟨_, c', .first asks active pass ((queued n).mpr rfl), rfl⟩
  | succ p _ ih =>
      obtain ⟨parts, c', run, hlength⟩ := ih (by omega)
      have hmore : parts.length < env.sys.dict.odParts size := by omega
      have resumes : ListResumes c' c'.posted := ⟨rfl, rfl, rfl, rfl, rfl⟩
      have posted : AllPosted env.sys.opts c'.posted.mb := by
        obtain ⟨n, hn⟩ := asks.accepted.idle
        refine ⟨rfl, rfl, n, hn.1, hn.2.1, ?_⟩
        simp only [Coe.posted]
        rw [if_neg (Nat.pos_iff_ne_zero.mp hn.1)]
      obtain ⟨c'', n, pass, queued⟩ := h.continues parts c' run hmore _ resumes posted
      refine ⟨_, c'', .next run ((h.lists parts c' run).going hmore) resumes posted pass
        ((queued n).mpr rfl), ?_⟩
      rw [List.length_append, List.length_singleton, hlength]

/-- A request for the list of all objects. -/
def allObjectsMessage : List Byte := [8, 0, 0, 0, 0, mbxcoe, 0, 0x80, 1, 0, 0, 0, 1, 0]

/-- In mailboxes of 18 bytes the list of the example device takes two parts. -/
theorem od_list_example : ∃ parts c, ListRun ⟨exampleSystem, 2⟩ 18 parts c ∧ parts.length = 2 ∧
    parts.flatMap ListPart.indexes = [0x1600, 0x1c12, 0x7000] ∧ c.mb.Free := by
  have hsends : SendsList ⟨exampleSystem, 2⟩ 18 := od_list_complete (by decide) (by decide)
  have hasks : AsksList exampleOptions { exampleMailbox allObjectsMessage with
      activemb1 := { exampleOptions.mb1 with sml := 18 } } 1 := by
    refine ⟨⟨by decide, by decide, by decide, by decide, by decide, ?_, by decide⟩, by decide,
      by decide, by decide⟩
    exact ⟨1, by decide, by decide, rfl⟩
  obtain ⟨parts, c, hrun, hlength⟩ := hsends.completes
    (c := ⟨fun _ => 0, _, ⟨fun _ => 0, [], false⟩⟩) hasks rfl (p := 2) (by decide) (by decide)
  obtain ⟨hindexes, hfree⟩ := (hsends.lists parts c hrun).done (hlength.trans (by decide))
  exact ⟨parts, c, hrun, hlength, hindexes, hfree⟩

end Soes
