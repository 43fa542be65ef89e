import NachosFileSys.Layout

namespace NachosFileSys

open Lib.Programs Lib.Bytes

/-- The table entries `slots` of a header stand on the disk `d` for the indirect blocks `bs` and the
data sectors `secs`. Every block but the last is full, and the entries after it are empty. -/
inductive Stored (d : Disk) : List ℤ → List ℤ → List ℤ → Prop
  | nil (n : ℕ) : Stored d (List.replicate n EmptyBlock) [] []
  | cons {b : ℤ} {part slots bs secs : List ℤ} (hb : InDisk b) (hpart : ∀ s ∈ part, InDisk s)
      (hpos : 0 < part.length) (hle : part.length ≤ 32) (hfull : bs ≠ [] → part.length = 32)
      (hd : IndirectBlock.ofSector (d b) = ⟨part ++ List.replicate (32 - part.length) EmptyBlock⟩)
      (rest : Stored d slots bs secs) : Stored d (b :: slots) (b :: bs) (part ++ secs)

def newBlocks (old need : ℕ) : ℕ := (old + need + 31) / 32 - (old + 31) / 32

namespace Stored

variable {d d' : Disk} {slots bs secs : List ℤ}

lemma congr (h : Stored d slots bs secs) (hd : ∀ b ∈ bs, d' b = d b) : Stored d' slots bs secs := by
  induction h with
  | nil n => exact .nil n
  | cons hb hpart hpos hle hfull hblock rest ih =>
    refine .cons hb hpart hpos hle hfull ?_ (ih fun b hb => hd b (List.mem_cons_of_mem _ hb))
    rw [hd _ List.mem_cons_self, hblock]

lemma blocks_inDisk (h : Stored d slots bs secs) : ∀ b ∈ bs, InDisk b := by
  induction h with
  | nil n => simp
  | cons hb _ _ _ _ _ _ ih => simpa using ⟨hb, ih⟩

lemma secs_inDisk (h : Stored d slots bs secs) : ∀ s ∈ secs, InDisk s := by
  induction h with
  | nil n => simp
  | cons _ hpart _ _ _ _ _ ih =>
    intro s hs
    rcases List.mem_append.mp hs with hs | hs
    · exact hpart s hs
    · exact ih s hs

lemma slots_eq (h : Stored d slots bs secs) :
    slots = bs ++ List.replicate (slots.length - bs.length) EmptyBlock := by
  induction h with
  | nil n => simp
  | cons _ _ _ _ _ _ _ ih =>
    rw [List.length_cons, List.length_cons, Nat.add_sub_add_right, List.cons_append, ← ih]

lemma blocks_length_le (h : Stored d slots bs secs) : bs.length ≤ slots.length := by
  induction h with
  | nil n => simp
  | cons _ _ _ _ _ _ _ ih => simpa using ih

lemma blocks_eq_nil (h : Stored d slots bs secs) : bs = [] ↔ secs = [] := by
  cases h with
  | nil n => simp
  | cons _ _ hpos => simp [List.ne_nil_of_length_pos hpos]

lemma blocks_length (h : Stored d slots bs secs) : bs.length = (secs.length + 31) / 32 := by
  induction h with
  | nil n => simp
  | @cons b part slots bs secs _ _ hpos hle hfull _ rest ih =>
    rw [List.length_cons, List.length_append, ih]
    by_cases hb : bs = []
    · rw [rest.blocks_eq_nil.mp hb, List.length_nil]
      omega
    · rw [hfull hb]
      omega

lemma secs_length_le (h : Stored d slots bs secs) : secs.length ≤ 32 * slots.length := by
  have h1 := h.blocks_length
  have h2 := h.blocks_length_le
  omega

end Stored

def Taken (m m' : FreeMap) (new : List ℤ) : Prop :=
  ∃ used, m.free = used ++ m'.free ∧ (sectors used).Perm new

namespace Taken

variable {m m₁ m₂ : FreeMap} {l l' : List ℤ}

lemma refl (m : FreeMap) : Taken m m [] := ⟨[], by rw [List.nil_append], .nil⟩

lemma trans (h : Taken m m₁ l) (h' : Taken m₁ m₂ l') : Taken m m₂ (l ++ l') := by
  obtain ⟨used, hf, hp⟩ := h
  obtain ⟨used', hf', hp'⟩ := h'
  refine ⟨used ++ used', by rw [hf, hf', List.append_assoc], ?_⟩
  rw [sectors_append]
  exact hp.append hp'

lemma perm (h : Taken m m₁ l) (hp : l.Perm l') : Taken m m₁ l' := by
  obtain ⟨used, hf, hl⟩ := h
  exact ⟨used, hf, hl.trans hp⟩

lemma mem_free (h : Taken m m₁ l) {s : ℤ} (hs : s ∈ l) : s ∈ sectors m.free := by
  obtain ⟨used, hf, hp⟩ := h
  rw [hf, sectors_append]
  exact List.mem_append_left _ (hp.mem_iff.mpr hs)

lemma free_subset (h : Taken m m₁ l) {s : ℤ} (hs : s ∈ sectors m₁.free) : s ∈ sectors m.free := by
  obtain ⟨used, hf, hp⟩ := h
  rw [hf, sectors_append]
  exact List.mem_append_right _ hs

lemma inDisk (h : Taken m m₁ l) {s : ℤ} (hs : s ∈ l) : InDisk s := inDisk_of_free (h.mem_free hs)

lemma nodup_append (h : Taken m m₁ l) : (l ++ sectors m₁.free).Nodup := by
  obtain ⟨used, hf, hp⟩ := h
  have hn := sectors_nodup (Bitmap.free_nodup m)
  rw [hf, sectors_append] at hn
  exact (hp.append_right _).nodup_iff.mp hn

lemma nodup (h : Taken m m₁ l) : l.Nodup := (List.nodup_append.mp h.nodup_append).1

lemma not_mem_free (h : Taken m m₁ l) {s : ℤ} (hs : s ∈ l) : s ∉ sectors m₁.free := fun hf =>
  (List.nodup_append.mp h.nodup_append).2.2 s hs s hf rfl

lemma append_blocks (h : Taken m m₁ (l ++ l')) {bs : List ℤ}
    (hnd : bs.Nodup) (hbf : ∀ b ∈ bs, b ∉ sectors m.free) :
    (bs ++ l).Nodup ∧ ∀ b ∈ bs ++ l, b ∉ sectors m₁.free := by
  constructor
  · refine List.nodup_append.mpr ⟨hnd, (List.nodup_append.mp h.nodup).1, ?_⟩
    rintro b hb _ hb' rfl
    exact hbf b hb (h.mem_free (List.mem_append_left _ hb'))
  · intro b hb hf
    rcases List.mem_append.mp hb with hb | hb
    · exact hbf b hb (h.free_subset hf)
    · exact h.not_mem_free (List.mem_append_left _ hb) hf

lemma length (h : Taken m m₁ l) : m.free.length = l.length + m₁.free.length := by
  obtain ⟨used, hf, hp⟩ := h
  rw [hf, List.length_append, ← hp.length_eq, sectors_length]

end Taken

namespace FileHeader

lemma allocateLoop_done (need allocated : ℤ) (h : need ≤ allocated) (slots : List ℤ) (m : FreeMap)
    (k : Kernel) : exec (allocateLoop need slots allocated m) k = .ok ((allocated, slots, m), k) := by
  cases slots with
  | nil => rfl
  | cons d ds =>
    rw [allocateLoop, if_neg (by omega)]
    rfl

lemma allocateLoop_round {need allocated : ℤ} (hn : allocated < need) {s s' : ℤ} (hs' : InDisk s')
    {block block' : IndirectBlock} {m m₁ m₂ : FreeMap} {k : Kernel} {t : ℤ} (ht : t ≠ -1)
    (hslot : exec (blockAt s m) k = .ok ((s', block, m₁), k))
    (hblock : block.allocate m₁ (need - allocated) = .ok (t, block', m₂)) (slots : List ℤ) :
    exec (allocateLoop need (s :: slots) allocated m) k =
      exec (do
        let (a, ds', m') ← allocateLoop need slots (allocated + t) m₂
        pure (a, s' :: ds', m')) { k with disk := Function.update k.disk s' block'.toSector } := by
  rw [allocateLoop, if_pos hn, exec_bind, hslot]
  simp only [hblock]
  rw [exec_bind, exec_assert, if_pos (by simpa using hs'.ne_empty)]
  simp only [exec_bind, exec_lift_ok, exec_assert]
  rw [if_pos (by simpa using ht)]
  simp only [IndirectBlock.writeBack, exec_write_inDisk hs']

lemma exec_blockAt_fetch {s : ℤ} (hs : InDisk s) (m : FreeMap) (k : Kernel) :
    exec (blockAt s m) k = .ok ((s, IndirectBlock.ofSector (k.disk s), m), k) := by
  rw [blockAt, if_neg hs.ne_empty, IndirectBlock.fetchFrom]
  simp only [exec_bind, exec_read_inDisk hs, exec_pure]

lemma exec_blockAt_empty {m m₁ : FreeMap} {s : ℤ} (h : m.findAndSet = .ok (s, m₁)) (k : Kernel) :
    exec (blockAt EmptyBlock m) k = .ok ((s, IndirectBlock.new, m₁), k) := by
  rw [blockAt, if_pos rfl, h]
  simp only [exec_bind, exec_lift_ok, exec_pure]

lemma allocateLoop_abort {need allocated : ℤ} (hn : allocated < need) {s s' : ℤ}
    {block : IndirectBlock} {m m₁ : FreeMap} {k : Kernel}
    (hslot : exec (blockAt s m) k = .ok ((s', block, m₁), k))
    (h : s' = EmptyBlock ∨ block.allocate m₁ (need - allocated) = .ok (-1, block, m₁)) (slots : List ℤ) :
    exec (allocateLoop need (s :: slots) allocated m) k = .error .assertion := by
  rw [allocateLoop, if_pos hn, exec_bind, hslot]
  simp only
  rw [exec_bind, exec_assert]
  by_cases hs : s' = EmptyBlock
  · rw [if_neg (by simpa using hs)]
  · rw [if_pos (by simpa using hs)]
    simp only [h.resolve_left hs, exec_bind, exec_lift_ok, exec_assert]
    rfl

lemma block_written (part : List ℤ) (used : List ℕ) (c : ℕ) (hp : ∀ s ∈ part, InDisk s) {m : FreeMap}
    (hu : ∀ i ∈ used, i ∈ m.free) (hc : part.length + used.length + c = 32) :
    IndirectBlock.ofSector (IndirectBlock.toSector
      ⟨part ++ (sectors used ++ List.replicate c EmptyBlock)⟩) =
        ⟨(part ++ sectors used) ++ List.replicate (32 - (part ++ sectors used).length) EmptyBlock⟩ := by
  have hlen : 32 - (part ++ sectors used).length = c := by
    rw [List.length_append, sectors_length]
    omega
  rw [IndirectBlock.ofSector_toSector, hlen, List.append_assoc]
  · simp only [List.length_append, sectors_length, List.length_replicate, MaxSector]
    omega
  · intro s hs
    rcases List.mem_append.mp hs with hs | hs
    · exact Or.inr (hp s hs)
    · rcases List.mem_append.mp hs with hs | hs
      · obtain ⟨i, hi, rfl⟩ := mem_sectors.mp hs
        exact Or.inr (inDisk_of_free (mem_sectors.mpr ⟨i, hu i hi, rfl⟩))
      · exact Or.inl (List.eq_of_mem_replicate hs)

lemma allocateLoop_fresh (n : ℕ) : ∀ (r : ℕ) (allocated : ℤ) (m : FreeMap) (k : Kernel), r ≤ 32 * n →
    r + (r + 31) / 32 ≤ m.free.length →
    ∃ slots nbs nsecs m' d', exec (allocateLoop (allocated + r) (List.replicate n EmptyBlock) allocated m) k =
        .ok ((allocated + r, slots, m'), { k with disk := d' }) ∧
      Stored d' slots nbs nsecs ∧ slots.length = n ∧ nsecs.length = r ∧ Taken m m' (nbs ++ nsecs) ∧
      ∀ x, x ∉ nbs → d' x = k.disk x := by
  induction n with
  | zero =>
    intro r allocated m k hr _
    obtain rfl : r = 0 := by omega
    refine ⟨[], [], [], m, k.disk, ?_, .nil 0, rfl, rfl, .refl m, fun _ _ => rfl⟩
    rw [allocateLoop_done _ _ (by simp)]
    simp
  | succ n ih =>
    intro r allocated m k hr hfree
    rcases Nat.eq_zero_or_pos r with rfl | hpos
    · refine ⟨_, [], [], m, k.disk, ?_, .nil (n + 1), by simp, rfl, .refl m, fun _ _ => rfl⟩
      rw [allocateLoop_done _ _ (by simp)]
      simp
    · obtain ⟨i, free, hi⟩ : ∃ i free, m.free = i :: free := List.exists_cons_of_length_pos (by omega)
      obtain ⟨m₁, hm₁, hf₁, -⟩ := Bitmap.findAndSet_cons m hi
      have hfl : m.free.length = free.length + 1 := by rw [hi, List.length_cons]
      have hid : InDisk i := inDisk_of_free (m := m) (by rw [hi]; simp)
      -- the block takes as many data sectors as it holds
      let used := free.take (min r 32)
      have hu : used.length = min r 32 := by
        rw [List.length_take]
        omega
      have hfu : m₁.free = used ++ free.drop (min r 32) := by
        rw [hf₁, List.take_append_drop]
      obtain ⟨m₂, hb, hf₂⟩ := IndirectBlock.allocate_enough [] 32 (by simp) m₁ r (by rw [hf₁]; omega) used
        _ hfu (by rw [hu])
      have ht : Taken m m₂ ((i : ℤ) :: sectors used) :=
        ⟨i :: used, by rw [hi, hf₂, List.cons_append, List.take_append_drop], .refl _⟩
      have hcast : allocated + (used.length : ℤ) + ((r - used.length : ℕ) : ℤ) = allocated + r := by
        rw [Nat.cast_sub (by omega)]
        ring
      obtain ⟨slots, nbs, nsecs, m', d', he, hs, hl, hn, ht', hd⟩ := ih (r - used.length)
        (allocated + used.length) m₂ { k with disk := Function.update k.disk i (IndirectBlock.toSector
          ⟨[] ++ (sectors used ++ List.replicate (32 - used.length) EmptyBlock)⟩) } (by omega)
        (by rw [hf₂, List.length_drop]; omega)
      rw [hcast] at he
      dsimp only at he hd
      have hib : (i : ℤ) ∉ nbs := fun hb => ht.not_mem_free List.mem_cons_self
        (ht'.mem_free (List.mem_append_left _ hb))
      refine ⟨i :: slots, i :: nbs, sectors used ++ nsecs, m', d', ?_, ?_, by simpa using hl, ?_, ?_, ?_⟩
      · rw [List.replicate_succ, allocateLoop_round (by omega) hid (by omega : (used.length : ℤ) ≠ -1)
          (exec_blockAt_empty hm₁ k) (by rw [add_sub_cancel_left]; exact hb), exec_bind, he]
        rfl
      · refine .cons hid (fun s hs => ht.inDisk (List.mem_cons_of_mem _ hs)) (by rw [sectors_length]; omega)
          (by rw [sectors_length]; omega) ?_ ?_ hs
        · intro hne
          have := hs.blocks_eq_nil.not.mp hne
          have := List.length_pos_iff.mpr this
          rw [sectors_length]
          omega
        · rw [hd _ hib, Function.update_self, block_written [] used _ (by simp) (m := m₁)
            (fun j hj => by rw [hfu]; exact List.mem_append_left _ hj) (by simp; omega)]
          simp
      · rw [List.length_append, sectors_length, hn]
        omega
      · refine (ht.trans ht').perm ?_
        simp only [List.cons_append]
        refine .cons _ ?_
        rw [← List.append_assoc, ← List.append_assoc]
        exact List.perm_append_comm.append_right _
      · intro x hx
        simp only [List.mem_cons, not_or] at hx
        rw [hd x hx.2]
        exact Function.update_of_ne hx.1 _ _

lemma allocateLoop_stored {d : Disk} {slots bs secs : List ℤ} (h : Stored d slots bs secs) :
    ∀ (r : ℕ) (allocated : ℤ) (m : FreeMap) (k : Kernel), (∀ b ∈ bs, k.disk b = d b) → bs.Nodup →
    (∀ b ∈ bs, b ∉ sectors m.free) → secs.length + r ≤ 32 * slots.length →
    r + newBlocks secs.length r ≤ m.free.length →
    ∃ slots' nbs nsecs m' d', exec (allocateLoop (allocated + r) slots allocated m) k =
        .ok ((allocated + r, slots', m'), { k with disk := d' }) ∧
      Stored d' slots' (bs ++ nbs) (secs ++ nsecs) ∧ slots'.length = slots.length ∧ nsecs.length = r ∧
      Taken m m' (nbs ++ nsecs) ∧ ∀ x, x ∉ bs → x ∉ nbs → d' x = k.disk x := by
  induction h with
  | nil n =>
    intro r allocated m k _ _ _ hcap hfree
    simp only [newBlocks, List.length_nil, List.length_replicate] at hcap hfree
    obtain ⟨slots, nbs, nsecs, m', d', he, hs, hl, hn, ht, hd⟩ :=
      allocateLoop_fresh n r allocated m k (by omega) (by omega)
    exact ⟨slots, nbs, nsecs, m', d', he, hs, by rw [hl, List.length_replicate], hn, ht, fun x _ => hd x⟩
  | @cons b part slots bs secs hb hpart hpos hle hfull hblock rest ih =>
    intro r allocated m k hk hnd hbf hcap hfree
    obtain ⟨hbbs, hnd⟩ := List.nodup_cons.mp hnd
    have hstored : Stored k.disk (b :: slots) (b :: bs) (part ++ secs) :=
      (Stored.cons hb hpart hpos hle hfull hblock rest).congr hk
    rcases Nat.eq_zero_or_pos r with rfl | hr
    · refine ⟨b :: slots, [], [], m, k.disk, ?_, by simpa using hstored, rfl, rfl, .refl m, fun _ _ _ => rfl⟩
      rw [allocateLoop_done _ _ (by simp)]
      simp
    · let n := 32 - part.length
      -- the room left in this block, which is none unless it is the last one
      have hlast : secs = [] ∨ n = 0 := by
        by_cases hs : secs = []
        · exact Or.inl hs
        · right
          have := hfull (rest.blocks_eq_nil.not.mpr hs)
          omega
      have hsecs : secs.length = 0 ∨ n = 0 := hlast.imp_left (by rintro rfl; rfl)
      have hbl := rest.blocks_length
      simp only [newBlocks, List.length_append, List.length_cons] at hcap hfree
      let used := m.free.take (min r n)
      have hu : used.length = min r n := by
        rw [List.length_take]
        omega
      have hfu : m.free = used ++ m.free.drop (min r n) := (List.take_append_drop _ _).symm
      obtain ⟨m₁, ha, hf₁⟩ := IndirectBlock.allocate_enough part n (fun s hs => (hpart s hs).ne_empty) m r
        (by omega) used _ hfu hu
      have ht : Taken m m₁ (sectors used) := ⟨used, by rw [hf₁]; exact hfu, .refl _⟩
      have hcast : allocated + (used.length : ℤ) + ((r - used.length : ℕ) : ℤ) = allocated + r := by
        rw [Nat.cast_sub (by omega)]
        ring
      obtain ⟨slots', nbs, nsecs, m', d', he, hs, hl, hn, ht', hd⟩ := ih (r - used.length)
        (allocated + used.length) m₁ { k with disk := Function.update k.disk b (IndirectBlock.toSector
          ⟨part ++ (sectors used ++ List.replicate (n - used.length) EmptyBlock)⟩) }
        (fun x hx => by
          have hne : x ≠ b := by rintro rfl; exact hbbs hx
          exact (Function.update_of_ne hne _ _).trans (hk x (List.mem_cons_of_mem _ hx)))
        hnd (fun x hx hf => hbf x (List.mem_cons_of_mem _ hx) (ht.free_subset hf)) (by omega)
        (by rw [hf₁, List.length_drop]; simp only [newBlocks]; omega)
      rw [hcast] at he
      dsimp only at he hd
      have hbn : b ∉ nbs := fun hbn => hbf b List.mem_cons_self
        (ht.free_subset (ht'.mem_free (List.mem_append_left _ hbn)))
      refine ⟨b :: slots', nbs, sectors used ++ nsecs, m', d', ?_, ?_, by simpa using hl, ?_, ?_, ?_⟩
      · have hfetch := exec_blockAt_fetch hb m k
        rw [hk b List.mem_cons_self, hblock] at hfetch
        rw [allocateLoop_round (by omega) hb (by omega : (used.length : ℤ) ≠ -1) hfetch
          (by rw [add_sub_cancel_left]; exact ha), exec_bind, he]
        rfl
      · have hsplit : part ++ secs ++ (sectors used ++ nsecs) = (part ++ sectors used) ++ (secs ++ nsecs) := by
          rcases hlast with rfl | h0
          · simp
          · obtain hz : used = [] := List.length_eq_zero_iff.mp (by omega)
            simp [hz]
        rw [hsplit, List.cons_append]
        refine .cons hb ?_ (by rw [List.length_append]; omega) ?_ ?_ ?_ hs
        · intro s hs
          rcases List.mem_append.mp hs with hs | hs
          · exact hpart s hs
          · exact ht.inDisk hs
        · rw [List.length_append, sectors_length]
          omega
        · intro hne
          have hlen := List.length_pos_iff.mpr (hs.blocks_eq_nil.not.mp hne)
          rw [List.length_append] at hlen
          rw [List.length_append, sectors_length]
          omega
        · rw [hd _ hbbs hbn, Function.update_self, block_written part used _ hpart (m := m)
            (fun j hj => List.mem_of_mem_take hj) (by omega)]
      · rw [List.length_append, sectors_length, hn]
        omega
      · refine (ht.trans ht').perm ?_
        rw [← List.append_assoc, ← List.append_assoc]
        exact List.perm_append_comm.append_right _
      · intro x hx hxn
        simp only [List.mem_cons, not_or] at hx
        rw [hd x hx.2 hxn]
        exact Function.update_of_ne hx.1 _ _

def Short (x : Except Fault ((ℤ × List ℤ × FreeMap) × Kernel)) (need : ℤ) : Prop :=
  x = .error .assertion ∨ ∃ a slots m k, x = .ok ((a, slots, m), k) ∧ a < need

lemma Short.bind {p : Nachos (ℤ × List ℤ × FreeMap)} {k : Kernel} {need : ℤ} (h : Short (exec p k) need) (s : ℤ) :
    Short (exec (do
      let (a, ds', m') ← p
      pure (a, s :: ds', m')) k) need := by
  rcases h with h | ⟨a, slots, m, k', h, ha⟩
  · left
    rw [exec_bind, h]
  · right
    exact ⟨a, s :: slots, m, k', by rw [exec_bind, h]; rfl, ha⟩

lemma allocateLoop_fresh_short (n : ℕ) : ∀ (r : ℕ) (allocated : ℤ) (m : FreeMap) (k : Kernel), 0 < r →
    ¬(r ≤ 32 * n ∧ r + (r + 31) / 32 ≤ m.free.length) →
    Short (exec (allocateLoop (allocated + r) (List.replicate n EmptyBlock) allocated m) k) (allocated + r) := by
  induction n with
  | zero =>
    intro r allocated m k hr _
    exact Or.inr ⟨allocated, [], m, k, rfl, by omega⟩
  | succ n ih =>
    intro r allocated m k hr hfail
    have hlt : allocated < allocated + (r : ℤ) := by omega
    rw [List.replicate_succ]
    cases hm : m.free with
    | nil =>
      left
      exact allocateLoop_abort hlt (exec_blockAt_empty (Bitmap.findAndSet_full m hm) k)
        (Or.inl rfl) _
    | cons i free =>
      obtain ⟨m₁, hm₁, hf₁, -⟩ := Bitmap.findAndSet_cons m hm
      have hid : InDisk i := inDisk_of_free (m := m) (by rw [hm]; simp)
      rw [hm, List.length_cons] at hfail
      by_cases hfew : m₁.free.length < r
      · left
        exact allocateLoop_abort hlt (exec_blockAt_empty hm₁ k)
          (Or.inr (by rw [add_sub_cancel_left]; exact IndirectBlock.allocate_few _ m₁ r hfew)) _
      · have hu : (free.take (min r 32)).length = min r 32 := by
          rw [List.length_take, ← hf₁]
          omega
        obtain ⟨m₂, hb, hf₂⟩ := IndirectBlock.allocate_enough [] 32 (by simp) m₁ r (by omega)
          (free.take (min r 32)) (free.drop (min r 32)) (by rw [hf₁, List.take_append_drop]) hu
        rw [hu] at hb
        rw [allocateLoop_round hlt hid (by omega : ((min r 32 : ℕ) : ℤ) ≠ -1) (exec_blockAt_empty hm₁ k)
          (by rw [add_sub_cancel_left]; exact hb)]
        apply Short.bind
        have hcast : allocated + ((min r 32 : ℕ) : ℤ) + ((r - min r 32 : ℕ) : ℤ) = allocated + r := by
          rw [Nat.cast_sub (by omega)]
          ring
        rw [← hcast]
        rw [hf₁] at hfew
        exact ih (r - min r 32) _ m₂ _ (by omega) (by rw [hf₂, List.length_drop]; omega)

lemma allocateLoop_stored_short {d : Disk} {slots bs secs : List ℤ} (h : Stored d slots bs secs) :
    ∀ (r : ℕ) (allocated : ℤ) (m : FreeMap) (k : Kernel), (∀ b ∈ bs, k.disk b = d b) → bs.Nodup → 0 < r →
    ¬(secs.length + r ≤ 32 * slots.length ∧ r + newBlocks secs.length r ≤ m.free.length) →
    Short (exec (allocateLoop (allocated + r) slots allocated m) k) (allocated + r) := by
  induction h with
  | nil n =>
    intro r allocated m k _ _ hr hfail
    simp only [newBlocks, List.length_nil, List.length_replicate] at hfail
    exact allocateLoop_fresh_short n r allocated m k hr (by omega)
  | @cons b part slots bs secs hb hpart hpos hle hfull hblock rest ih =>
    intro r allocated m k hk hnd hr hfail
    obtain ⟨hbbs, hnd⟩ := List.nodup_cons.mp hnd
    have hlt : allocated < allocated + (r : ℤ) := by omega
    have hfetch := exec_blockAt_fetch hb m k
    rw [hk b List.mem_cons_self, hblock] at hfetch
    by_cases hfew : m.free.length < r
    · left
      exact allocateLoop_abort hlt hfetch
        (Or.inr (by rw [add_sub_cancel_left]; exact IndirectBlock.allocate_few _ m r hfew)) _
    · let n := 32 - part.length
      have hsecs : secs.length = 0 ∨ n = 0 := by
        by_cases hs : secs = []
        · exact Or.inl (by rw [hs]; rfl)
        · right
          have := hfull (rest.blocks_eq_nil.not.mpr hs)
          omega
      have hsl := rest.secs_length_le
      simp only [newBlocks, List.length_append, List.length_cons] at hfail
      have hu : (m.free.take (min r n)).length = min r n := by
        rw [List.length_take]
        omega
      obtain ⟨m₁, ha, hf₁⟩ := IndirectBlock.allocate_enough part n (fun s hs => (hpart s hs).ne_empty) m r
        (by omega) _ _ (List.take_append_drop (min r n) m.free).symm hu
      rw [hu] at ha
      rw [allocateLoop_round hlt hb (by omega : ((min r n : ℕ) : ℤ) ≠ -1) hfetch
        (by rw [add_sub_cancel_left]; exact ha)]
      apply Short.bind
      have hcast : allocated + ((min r n : ℕ) : ℤ) + ((r - min r n : ℕ) : ℤ) = allocated + r := by
        rw [Nat.cast_sub (by omega)]
        ring
      rw [← hcast]
      refine ih (r - min r n) _ m₁ _ ?_ hnd (by omega) ?_
      · intro x hx
        have hne : x ≠ b := by rintro rfl; exact hbbs hx
        exact (Function.update_of_ne hne _ _).trans (hk x (List.mem_cons_of_mem _ hx))
      · rw [hf₁, List.length_drop]
        simp only [newBlocks]
        omega

structure On (h : FileHeader) (d : Disk) (bs secs : List ℤ) : Prop where
  stored : Stored d h.dataSectors bs secs
  length : h.dataSectors.length = NumDirect

lemma On.secs_le {h : FileHeader} {d : Disk} {bs secs : List ℤ} (hon : h.On d bs secs) : secs.length ≤ 928 := by
  have hl := hon.stored.secs_length_le
  rw [hon.length] at hl
  exact hl

def grown (h : FileHeader) (fileSize : ℤ) (ds : List ℤ) : FileHeader :=
  { h with
    numBytes := int32 (h.numBytes + fileSize)
    numSectors := int32 (h.numSectors + divRoundUp fileSize SectorSize)
    dataSectors := ds }

end FileHeader

/-- The number of data sectors that `Allocate` takes for `fileSize` bytes. -/
def sectorsNeeded (fileSize : ℤ) : ℕ := (divRoundUp fileSize SectorSize).toNat

lemma divRoundUp_of_nonneg {n : ℤ} (h : 0 ≤ n) : divRoundUp n SectorSize = (n + 127) / 128 := by
  simp only [divRoundUp, SectorSize, Int.tdiv_eq_ediv_of_nonneg h, Int.tmod_eq_emod_of_nonneg h]
  split <;> omega

lemma sectorsNeeded_of_nonneg {n : ℤ} (h : 0 ≤ n) : sectorsNeeded n = ((n + 127) / 128).toNat := by
  rw [sectorsNeeded, divRoundUp_of_nonneg h]

lemma le_sectorsNeeded (n : ℤ) : n ≤ 128 * sectorsNeeded n := by
  rcases le_total 0 n with h | h
  · rw [sectorsNeeded_of_nonneg h]
    omega
  · omega

namespace FileHeader

lemma grown_fileLength_le {h : FileHeader} {n fileSize : ℤ} (ds : List ℤ) (hle : h.numBytes ≤ n)
    (hlo : -2147483648 ≤ h.numBytes + fileSize) (hn : n + 128 * sectorsNeeded fileSize < 2147483648) :
    (h.grown fileSize ds).numBytes = h.numBytes + fileSize ∧
      (h.grown fileSize ds).numBytes ≤ n + 128 * sectorsNeeded fileSize := by
  have hs := le_sectorsNeeded fileSize
  have he : (h.grown fileSize ds).numBytes = h.numBytes + fileSize := int32_of_bounds hlo (by omega)
  exact ⟨he, by rw [he]; omega⟩

lemma allocate_refuse (h : FileHeader) (m : FreeMap) (fileSize : ℤ) (k : Kernel)
    (hlt : m.free.length < sectorsNeeded fileSize) :
    exec (h.allocate m fileSize) k = .ok ((false, h, m), k) := by
  rw [sectorsNeeded] at hlt
  rw [allocate, Bitmap.numClear_eq]
  simp only [exec_bind, exec_lift_ok]
  rw [if_pos (by omega)]
  rfl

lemma exec_allocate (h : FileHeader) (m : FreeMap) (fileSize : ℤ) (k : Kernel)
    (hle : sectorsNeeded fileSize ≤ m.free.length) :
    exec (h.allocate m fileSize) k =
      exec (do
        let (allocated, ds, m') ← allocateLoop (divRoundUp fileSize SectorSize) h.dataSectors 0 m
        assert (divRoundUp fileSize SectorSize ≤ allocated)
        pure (true, h.grown fileSize ds, m')) k := by
  rw [sectorsNeeded] at hle
  rw [allocate, Bitmap.numClear_eq, exec_bind, exec_lift_ok]
  dsimp only
  rw [if_neg (by omega)]
  rfl

lemma allocate_ok {h : FileHeader} {bs secs : List ℤ} {k : Kernel} (hon : h.On k.disk bs secs)
    (hnd : bs.Nodup) {m : FreeMap} (hbf : ∀ b ∈ bs, b ∉ sectors m.free) (fileSize : ℤ)
    (hcap : secs.length + sectorsNeeded fileSize ≤ 928)
    (hfree : sectorsNeeded fileSize + newBlocks secs.length (sectorsNeeded fileSize) ≤ m.free.length) :
    ∃ ds nbs nsecs m' d', exec (h.allocate m fileSize) k =
        .ok ((true, h.grown fileSize ds, m'), { k with disk := d' }) ∧
      (h.grown fileSize ds).On d' (bs ++ nbs) (secs ++ nsecs) ∧ nsecs.length = sectorsNeeded fileSize ∧
      Taken m m' (nbs ++ nsecs) ∧ ∀ x, x ∉ bs → x ∉ nbs → d' x = k.disk x := by
  rw [exec_allocate h m fileSize k (by omega)]
  rcases lt_or_ge 0 (divRoundUp fileSize SectorSize) with hpos | hneg
  · have hr : divRoundUp fileSize SectorSize = 0 + (sectorsNeeded fileSize : ℕ) := by
      rw [sectorsNeeded]
      omega
    obtain ⟨ds, nbs, nsecs, m', d', he, hs, hl, hn, ht, hd⟩ := allocateLoop_stored hon.stored
      (sectorsNeeded fileSize) 0 m k (fun _ _ => rfl) hnd hbf (by rw [hon.length]; omega) hfree
    refine ⟨ds, nbs, nsecs, m', d', ?_, ⟨hs, hl.trans hon.length⟩, hn, ht, hd⟩
    rw [hr, exec_bind, he]
    simp only [exec_bind, exec_assert, le_refl, decide_true, if_true, exec_pure]
  · have hz : sectorsNeeded fileSize = 0 := Int.toNat_of_nonpos hneg
    refine ⟨h.dataSectors, [], [], m, k.disk, ?_, ⟨by simpa [grown] using hon.stored, hon.length⟩, by simp [hz],
      .refl m, fun _ _ _ => rfl⟩
    rw [exec_bind, allocateLoop_done _ _ hneg]
    simp only [exec_bind, exec_assert]
    rw [if_pos (by simpa using hneg)]
    rfl

lemma allocate_abort {h : FileHeader} {bs secs : List ℤ} {k : Kernel} (hon : h.On k.disk bs secs)
    (hnd : bs.Nodup) {m : FreeMap} (fileSize : ℤ) (hpos : 0 < sectorsNeeded fileSize)
    (hle : sectorsNeeded fileSize ≤ m.free.length)
    (hfail : ¬(secs.length + sectorsNeeded fileSize ≤ 928 ∧
      sectorsNeeded fileSize + newBlocks secs.length (sectorsNeeded fileSize) ≤ m.free.length)) :
    exec (h.allocate m fileSize) k = .error .assertion := by
  have hr : divRoundUp fileSize SectorSize = 0 + (sectorsNeeded fileSize : ℕ) := by
    rw [sectorsNeeded] at hpos ⊢
    omega
  rw [exec_allocate h m fileSize k hle, hr]
  rcases allocateLoop_stored_short hon.stored (sectorsNeeded fileSize) 0 m k (fun _ _ => rfl) hnd hpos
    (by rw [hon.length]; exact hfail) with he | ⟨a, slots, m', k', he, ha⟩
  · rw [exec_bind, he]
  · rw [exec_bind, he]
    simp only [exec_bind, exec_assert]
    rw [if_neg (by simpa using ha)]

lemma allocate_inv {h h' : FileHeader} {bs secs : List ℤ} {k k' : Kernel} (hon : h.On k.disk bs secs)
    (hnd : bs.Nodup) {m m' : FreeMap} (hbf : ∀ b ∈ bs, b ∉ sectors m.free) {fileSize : ℤ}
    (he : exec (h.allocate m fileSize) k = .ok ((true, h', m'), k')) :
    ∃ ds nbs nsecs d', h' = h.grown fileSize ds ∧ k' = { k with disk := d' } ∧
      h'.On d' (bs ++ nbs) (secs ++ nsecs) ∧ nsecs.length = sectorsNeeded fileSize ∧
      Taken m m' (nbs ++ nsecs) ∧ ∀ x, x ∉ bs → x ∉ nbs → d' x = k.disk x := by
  have hsl := hon.secs_le
  by_cases hfew : m.free.length < sectorsNeeded fileSize
  · rw [allocate_refuse h m fileSize k hfew] at he
    cases he
  · by_cases hfit : secs.length + sectorsNeeded fileSize ≤ 928 ∧
      sectorsNeeded fileSize + newBlocks secs.length (sectorsNeeded fileSize) ≤ m.free.length
    · obtain ⟨ds, nbs, nsecs, m₁, d', he', hon', hn, ht, hd⟩ := allocate_ok hon hnd hbf fileSize hfit.1 hfit.2
      rw [he'] at he
      cases he
      exact ⟨ds, nbs, nsecs, d', rfl, rfl, hon', hn, ht, hd⟩
    · have hpos : 0 < sectorsNeeded fileSize := by
        simp only [newBlocks] at hfit
        omega
      rw [allocate_abort hon hnd fileSize hpos (by omega) hfit] at he
      cases he

def fresh (permisstion : ℤ) : FileHeader := ⟨permisstion, 0, 0, List.replicate NumDirect EmptyBlock⟩

lemma fresh_on (permisstion : ℤ) (d : Disk) : (fresh permisstion).On d [] [] :=
  ⟨.nil NumDirect, List.length_replicate⟩

lemma fresh_allocate_block {p n : ℤ} {h : FileHeader} {m m' : FreeMap} {k k' : Kernel} {i : ℕ} {rest : List ℕ}
    (hpos : 0 < sectorsNeeded n) (hi : m.free = i :: rest)
    (he : exec ((fresh p).allocate m n) k = .ok ((true, h, m'), k')) : h.dataSectors.head? = some (i : ℤ) := by
  have hneed : 0 < divRoundUp n SectorSize := by
    rw [sectorsNeeded] at hpos
    omega
  rcases Nat.lt_or_ge m.free.length (sectorsNeeded n) with hfew | hle
  · rw [allocate_refuse _ m n k hfew] at he
    cases he
  · rw [exec_allocate _ m n k hle] at he
    obtain ⟨⟨a, ds, m₁⟩, k₁, hloop, he⟩ := exec_bind_ok.mp he
    obtain ⟨u, k₂, -, he⟩ := exec_bind_ok.mp he
    cases he
    obtain ⟨m₂, hfind, -⟩ := Bitmap.findAndSet_cons m hi
    have hslots : (fresh p).dataSectors = EmptyBlock :: List.replicate 28 EmptyBlock := rfl
    rw [hslots, allocateLoop, if_pos hneed, exec_bind_of_ok (exec_blockAt_empty hfind k)] at hloop
    dsimp only at hloop
    obtain ⟨u₁, t₁, -, hloop⟩ := exec_bind_ok.mp hloop
    obtain ⟨x₂, t₂, -, hloop⟩ := exec_bind_ok.mp hloop
    obtain ⟨u₃, t₃, -, hloop⟩ := exec_bind_ok.mp hloop
    obtain ⟨u₄, t₄, -, hloop⟩ := exec_bind_ok.mp hloop
    obtain ⟨x₅, t₅, -, hloop⟩ := exec_bind_ok.mp hloop
    rw [exec_pure, Except.ok.injEq, Prod.mk.injEq, Prod.mk.injEq, Prod.mk.injEq] at hloop
    rw [← hloop.1.2.1]
    rfl

def allocateAll : FileHeader → FreeMap → List ℤ → Nachos (Bool × FileHeader × FreeMap)
  | h, freeMap, [] => pure (true, h, freeMap)
  | h, freeMap, size :: sizes => do
    let (success, h', freeMap') ← h.allocate freeMap size
    if success then allocateAll h' freeMap' sizes else pure (false, h', freeMap')

def totalNeeded (sizes : List ℤ) : ℕ := (sizes.map sectorsNeeded).sum

lemma totalNeeded_cons (size : ℤ) (sizes : List ℤ) :
    totalNeeded (size :: sizes) = sectorsNeeded size + totalNeeded sizes := by
  simp [totalNeeded]

lemma allocateAll_inv (sizes : List ℤ) : ∀ {h h' : FileHeader} {bs secs : List ℤ} {k k' : Kernel} {m m' : FreeMap},
    h.On k.disk bs secs → bs.Nodup → (∀ b ∈ bs, b ∉ sectors m.free) →
    exec (allocateAll h m sizes) k = .ok ((true, h', m'), k') →
    ∃ nbs nsecs d', k' = { k with disk := d' } ∧ h'.On d' (bs ++ nbs) (secs ++ nsecs) ∧
      nsecs.length = totalNeeded sizes ∧ Taken m m' (nbs ++ nsecs) ∧
      (∀ x, x ∉ bs → x ∉ nbs → d' x = k.disk x) ∧
      ((∀ n ∈ sizes, 0 ≤ n) → h.numSectors = secs.length → h'.numSectors = secs.length + totalNeeded sizes) ∧
      ((∀ j, -2147483648 ≤ h.numBytes + (sizes.take j).sum) → h.numBytes ≤ 128 * secs.length →
        h'.numBytes ≤ 128 * (secs ++ nsecs).length) := by
  induction sizes with
  | nil =>
    intro h h' bs secs k k' m m' hon hnd hbf he
    rw [allocateAll, exec_pure] at he
    cases he
    exact ⟨[], [], k.disk, rfl, by simpa using hon, rfl, .refl m, fun _ _ _ => rfl, fun _ hs => by
      simpa [totalNeeded] using hs, fun _ hb => by simpa using hb⟩
  | cons size sizes ih =>
    intro h h' bs secs k k' m m' hon hnd hbf he
    rw [allocateAll] at he
    obtain ⟨⟨success, h₁, m₁⟩, k₁, ha, he⟩ := exec_bind_ok.mp he
    dsimp only at he
    cases success with
    | false =>
      rw [if_neg (by simp), exec_pure] at he
      cases he
    | true =>
      rw [if_pos rfl] at he
      obtain ⟨ds, nbs, nsecs, d₁, rfl, rfl, hon₁, hn, ht, hd⟩ := allocate_inv hon hnd hbf ha
      obtain ⟨hnd₁, hfree⟩ := ht.append_blocks hnd hbf
      obtain ⟨nbs', nsecs', d', rfl, hon', hn', ht', hd', hnum, hbytes⟩ := ih hon₁ hnd₁ hfree he
      refine ⟨nbs ++ nbs', nsecs ++ nsecs', d', rfl, by simpa using hon', ?_, ?_, ?_, ?_, ?_⟩
      · rw [List.length_append, hn, hn', totalNeeded_cons]
      · refine (ht.trans ht').perm ?_
        simp only [List.append_assoc]
        refine List.Perm.append_left _ ?_
        rw [← List.append_assoc, ← List.append_assoc]
        exact List.perm_append_comm.append_right _
      · intro x hx hxn
        rw [List.mem_append, not_or] at hxn
        rw [hd' x (by simp [hx, hxn.1]) hxn.2]
        exact hd x hx hxn.1
      · intro hpos hs
        have hnn := divRoundUp_of_nonneg (hpos size List.mem_cons_self)
        have hlen := hon₁.secs_le
        rw [List.length_append, hn] at hlen
        have h0 := hpos size List.mem_cons_self
        have hsum : (h.grown size ds).numSectors = ((secs ++ nsecs).length : ℕ) := by
          rw [List.length_append, hn, grown]
          dsimp only
          rw [sectorsNeeded, hnn] at hlen ⊢
          rw [hs, int32_of_bounds (by omega) (by omega)]
          omega
        rw [hnum (fun n hn => hpos n (List.mem_cons_of_mem _ hn)) hsum, List.length_append, hn, totalNeeded_cons]
        push_cast
        ring
      · intro hlo hb
        have hsl := hon₁.secs_le
        rw [List.length_append, hn] at hsl
        obtain ⟨hg, hgl⟩ := grown_fileLength_le ds hb (by simpa using hlo 1) (by omega)
        rw [← List.append_assoc]
        apply hbytes
        · intro j
          rw [hg]
          simpa [add_assoc] using hlo (j + 1)
        · rw [List.length_append, hn]
          push_cast
          omega

lemma allocateAll_blank (fileSize : ℤ) (hle : sectorsNeeded fileSize ≤ 928) :
    ∃ h m' k', exec (allocateAll (fresh 0) (Bitmap.empty 1024) [fileSize]) Kernel.blank =
      .ok ((true, h, m'), k') := by
  obtain ⟨ds, nbs, nsecs, m', d', he, -⟩ := allocate_ok (fresh_on 0 Kernel.blank.disk) List.nodup_nil
    (m := Bitmap.empty 1024) (by simp) fileSize (by simpa using hle) (by
      rw [Bitmap.free_empty, List.length_range]
      simp only [newBlocks, List.length_nil]
      omega)
  refine ⟨(fresh 0).grown fileSize ds, m', { Kernel.blank with disk := d' }, ?_⟩
  rw [allocateAll, exec_bind_of_ok he]
  rfl

end FileHeader

end NachosFileSys
