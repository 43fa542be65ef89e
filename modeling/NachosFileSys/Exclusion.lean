import NachosFileSys.Threads

namespace NachosFileSys

open Lib.Programs Lib.Bytes Lib.Runs Lib.Threads

def Request.Spares (h : ℤ) : Request → Prop
  | .assign m key _ => m = .openFileCount ∨ key ≠ h
  | .p _ key => key ≠ h
  | .v _ key => key ≠ h
  | _ => True

def Present (h : ℤ) : (e : Request) → e.Reply → Prop
  | .find m key, r => m ≠ .openFileCount → key = h → ∃ v, r = some v
  | _, _ => True

structure Quiet {α : Type} (h : ℤ) (p : Nachos α) : Prop where
  within : p.Within (Present h) (Request.Spares h)

section Quiet

variable {α β : Type} {h : ℤ} {k k' : Kernel}

lemma Kernel.setMap_other (k : Kernel) {m m' : KernelMap} {key h : ℤ} (hne : m' ≠ m ∨ key ≠ h) (v : ℤ) :
    (k.setMap m key v).maps m' h = k.maps m' h := by
  by_cases hm : m' = m
  · subst hm
    rw [setMap_same, Function.update_of_ne]
    rintro rfl
    exact hne.elim (fun h => h rfl) fun h => h rfl
  · rw [k.setMap_of_map_ne hm]

lemma Kernel.handle_spares {e : Request} {r : e.Reply} (he : e.Spares h) (hh : Kernel.handle e k = .ok (r, k'))
    {m : KernelMap} (hm : m ≠ .openFileCount) : k'.maps m h = k.maps m h := by
  cases e with
  | readSector s | writeSector s data =>
    simp only [handle] at hh
    split at hh
    · cases hh
      rfl
    · cases hh
  | malloc n =>
    cases hh
    rfl
  | find m key =>
    cases hh
    rfl
  | assign m' key value =>
    cases hh
    refine k.setMap_other ?_ value
    rcases he with rfl | he
    · exact .inl hm
    · exact .inr he
  | p m' key =>
    simp only [handle] at hh
    split at hh
    · cases hh
    · split at hh
      · cases hh
      · cases hh
        exact k.setMap_other (.inr he) _
  | v m' key =>
    simp only [handle] at hh
    split at hh
    · cases hh
    · cases hh
      exact k.setMap_other (.inr he) _
  | stop f => cases hh

lemma Kernel.handle_present {e : Request} {r : e.Reply} (hk : ∀ m, m ≠ .openFileCount → k.maps m h ≠ none)
    (hh : Kernel.handle e k = .ok (r, k')) : Present h e r := by
  cases e with
  | find m key =>
    cases hh
    rintro hm rfl
    exact Option.ne_none_iff_exists'.mp (hk m hm)
  | readSector | writeSector | malloc | assign | p | v | stop => trivial

lemma KeepsMaps.quiet {p : Nachos α} (hp : KeepsMaps p) : Quiet h p :=
  ⟨(Prog.All.mono (fun e he => by cases e <;> trivial) hp.all).within⟩

lemma Quiet.bind {p : Nachos α} {f : α → Nachos β} (hp : Quiet h p) (hf : ∀ a, Quiet h (f a)) :
    Quiet h (p >>= f) :=
  ⟨Prog.Within.bind hp.within fun a => (hf a).within⟩

lemma quiet_pure (a : α) : Quiet h (pure a : Nachos α) := ⟨trivial⟩

lemma quiet_countOpen (s first : ℤ) : Quiet h (OpenFile.countOpen s first) := by
  refine ⟨trivial, fun r _ => ?_⟩
  cases r with
  | none => exact ⟨.inl rfl, fun _ _ => trivial⟩
  | some count => exact ⟨.inl rfl, fun _ _ => trivial⟩

lemma quiet_register (m : KernelMap) (hm : m ≠ .openFileCount) (s value : ℤ) : Quiet h (register m s value) := by
  refine ⟨trivial, fun r hr => ?_⟩
  cases r with
  | none =>
    refine ⟨.inr fun hs => ?_, fun _ _ => trivial⟩
    obtain ⟨v, hv⟩ := hr hm hs
    cases hv
  | some v => trivial

lemma quiet_openAt (s : ℤ) : Quiet h (openAt s) :=
  ((FileHeader.reads_fetchFrom s).keepsMaps.quiet.bind fun _ => (quiet_countOpen s 0).bind fun _ =>
    (quiet_register .readerCount (by decide) s 0).bind fun _ =>
      (quiet_register .semaphoreWrite (by decide) s 1).bind fun _ =>
        (quiet_register .semaphoreRead (by decide) s 1).bind fun _ => quiet_pure _).bind fun _ =>
    (quiet_countOpen s 1).bind fun _ => (quiet_register .semaphoreRead (by decide) s 1).bind fun _ => quiet_pure _

lemma quiet_close (f : OpenFile) : Quiet h f.close := by
  refine Quiet.bind ⟨trivial, fun r _ => ?_⟩ fun _ => ⟨⟨.inl rfl, fun _ _ => trivial⟩⟩
  cases r with
  | none => exact ⟨.inl rfl, fun _ _ => trivial⟩
  | some count => trivial

end Quiet

namespace Gate

def moved : Gate → Bool
  | .held | .found _ => false
  | .changed | .missing | .crossing | .releasing => true

def Entering (c : ℕ) (g : Bool) : Gate → Prop
  | .held => g = decide (0 < c)
  | .found count => count = c ∧ g = decide (0 < c)
  | .changed => g = decide (1 < c)
  | .missing => False
  | .crossing => c = 1 ∧ g = false
  | .releasing => g = true

def Leaving (c : ℕ) (g : Bool) : Gate → Prop
  | .held => g = true
  | .found count => count = c ∧ g = true
  | .changed => g = true
  | .missing => False
  | .crossing => c = 0 ∧ g = true
  | .releasing => g = decide (0 < c)

end Gate

namespace Point

variable (h : ℤ)

def mutex : Point → Bool
  | .enter _ f _ | .leave _ f _ => f.hdrSector = h
  | _ => false

def counted : Point → Bool
  | .enter gate f _ => f.hdrSector = h && gate.moved
  | .reading f _ => f.hdrSector = h
  | .leave gate f _ => f.hdrSector = h && !gate.moved
  | _ => false

def inReadAt : Point → Bool
  | .reading f _ => f.hdrSector = h
  | _ => false

def inWriteAt : Point → Bool
  | .writing f _ => f.hdrSector = h
  | _ => false

def inside : Point → Bool
  | .enter _ f _ | .reading f _ | .leave _ f _ | .writing f _ => f.hdrSector = h
  | _ => false

def Agrees (c : ℕ) (g : Bool) : Point → Prop
  | .enter gate f _ => f.hdrSector = h → gate.Entering c g
  | .leave gate f _ => f.hdrSector = h → gate.Leaving c g
  | _ => True

def Calm : Point → Prop
  | .opening rest => Quiet h rest
  | .closing rest => Quiet h rest
  | .reading _ rest => Quiet h rest
  | .extending _ _ _ rest => Quiet h rest
  | .writing _ rest => Quiet h rest
  | _ => True

end Point

/-- The invariant: the semaphores and the count of readers of the sector `h`, by the points at which the
threads are; `g` tells whether the readers hold `semaphoreWrite`. -/
structure Tally (h : ℤ) (k : Kernel) (ts : List Point) (g : Bool) : Prop where
  read : k.maps .semaphoreRead h = some (1 - (ts.countP (Point.mutex h) : ℤ))
  mutex : ts.countP (Point.mutex h) ≤ 1
  count : k.maps .readerCount h = some (ts.countP (Point.counted h) : ℤ)
  write : k.maps .semaphoreWrite h = some (1 - ((ts.countP (Point.inWriteAt h) : ℤ) + g.toNat))
  exclusive : ts.countP (Point.inWriteAt h) + g.toNat ≤ 1
  resting : ts.countP (Point.mutex h) = 0 → g = decide (0 < ts.countP (Point.counted h))
  agrees : ∀ p ∈ ts, p.Agrees h (ts.countP (Point.counted h)) g
  calm : ∀ p ∈ ts, p.Calm h

namespace Tally

variable {h : ℤ} {k k' : Kernel} {ts : List Point} {g : Bool} {i : ℕ} {p z : Point}

lemma present (ht : Tally h k ts g) (m : KernelMap) (hm : m ≠ .openFileCount) : k.maps m h ≠ none := by
  cases m with
  | semaphoreRead => rw [ht.read]; simp
  | semaphoreWrite => rw [ht.write]; simp
  | readerCount => rw [ht.count]; simp
  | openFileCount => exact absurd rfl hm

lemma agrees_of_not_mutex (hp : p.mutex h = false) (c : ℕ) (g : Bool) : p.Agrees h c g := by
  cases p with
  | enter gate f n => exact fun hf => absurd hf (by simpa [Point.mutex] using hp)
  | leave gate f r => exact fun hf => absurd hf (by simpa [Point.mutex] using hp)
  | absent | opening | idle | closing | arriving | reading | beyond | extending | locking | writing => trivial

lemma agrees_set (ht : Tally h k ts g) (hi : ts[i]? = some p) {c : ℕ} {g' : Bool} (hself : z.Agrees h c g')
    (hothers : c = ts.countP (Point.counted h) ∧ g' = g ∨
      ts.countP (Point.mutex h) ≤ if p.mutex h then 1 else 0) :
    ∀ q ∈ ts.set i z, q.Agrees h c g' := by
  intro q hq
  obtain ⟨j, hj⟩ := List.mem_iff_getElem?.mp hq
  by_cases hij : i = j
  · subst hij
    rw [List.getElem?_set_self (List.getElem?_eq_some_iff.mp hi).1] at hj
    cases hj
    exact hself
  · rw [List.getElem?_set_ne hij] at hj
    rcases hothers with ⟨rfl, rfl⟩ | hle
    · exact ht.agrees q (List.mem_of_getElem? hj)
    · refine agrees_of_not_mutex ?_ c g'
      rw [Bool.eq_false_iff]
      intro hq
      split at hle
      · have := Pool.two_le_countP hi hj hij ‹_› hq
        omega
      · have : 0 < ts.countP (Point.mutex h) := List.countP_pos_iff.mpr ⟨q, List.mem_of_getElem? hj, hq⟩
        omega

lemma calm_set (ht : Tally h k ts g) (hp' : z.Calm h) : ∀ q ∈ ts.set i z, q.Calm h := fun q hq =>
  (List.mem_or_eq_of_mem_set hq).elim (ht.calm q) fun he => he ▸ hp'

lemma keep (ht : Tally h k ts g) (hi : ts[i]? = some p)
    (hmaps : ∀ m, m ≠ .openFileCount → k'.maps m h = k.maps m h)
    (hm : z.mutex h = p.mutex h) (hc : z.counted h = p.counted h) (hw : z.inWriteAt h = p.inWriteAt h)
    (hself : z.Agrees h (ts.countP (Point.counted h)) g) (hcalm : z.Calm h) : Tally h k' (ts.set i z) g := by
  have hM := Pool.countP_set (p := Point.mutex h) hi z
  have hC := Pool.countP_set (p := Point.counted h) hi z
  have hW := Pool.countP_set (p := Point.inWriteAt h) hi z
  rw [hm, Nat.add_right_cancel_iff] at hM
  rw [hc, Nat.add_right_cancel_iff] at hC
  rw [hw, Nat.add_right_cancel_iff] at hW
  refine ⟨?_, ?_, ?_, ?_, ?_, ?_, ?_, ht.calm_set hcalm⟩
  · rw [hmaps _ (by decide), ht.read, hM]
  · rw [hM]
    exact ht.mutex
  · rw [hmaps _ (by decide), ht.count, hC]
  · rw [hmaps _ (by decide), ht.write, hW]
  · rw [hW]
    exact ht.exclusive
  · rw [hM, hC]
    exact ht.resting
  · rw [hC]
    exact ht.agrees_set hi hself (.inl ⟨rfl, rfl⟩)

end Tally

namespace Kernel

variable {k k' : Kernel} {m : KernelMap} {key : ℤ}

lemma handle_p {r : Unit} (hh : handle (.p m key) k = .ok (r, k')) :
    ∃ v, k.maps m key = some v ∧ v ≠ 0 ∧ k' = k.setMap m key (v - 1) := by
  simp only [handle] at hh
  split at hh
  · cases hh
  case h_2 v hv =>
    split at hh
    · cases hh
    · cases hh
      exact ⟨v, hv, ‹_›, rfl⟩

lemma handle_v {r : Unit} (hh : handle (.v m key) k = .ok (r, k')) :
    ∃ v, k.maps m key = some v ∧ k' = k.setMap m key (v + 1) := by
  simp only [handle] at hh
  split at hh
  · cases hh
  case h_2 v hv =>
    cases hh
    exact ⟨v, hv, rfl⟩

end Kernel

namespace Tally

variable {h : ℤ} {k k' : Kernel} {ts : List Point} {g : Bool} {i : ℕ} {p z : Point} {f : OpenFile}

lemma pass_p (ht : Tally h k ts g) (hi : ts[i]? = some p) {r : Unit}
    (hh : Kernel.handle (.p .semaphoreRead h) k = .ok (r, k')) (hm : p.mutex h = false) (hm' : z.mutex h = true)
    (hc : z.counted h = p.counted h) (hw : z.inWriteAt h = p.inWriteAt h)
    (hself : g = decide (0 < ts.countP (Point.counted h)) → z.Agrees h (ts.countP (Point.counted h)) g)
    (hcalm : z.Calm h) : Tally h k' (ts.set i z) g := by
  obtain ⟨v, hv, hne, rfl⟩ := Kernel.handle_p hh
  rw [ht.read] at hv
  cases hv
  have hM := Pool.countP_set (p := Point.mutex h) hi z
  have hC := Pool.countP_set (p := Point.counted h) hi z
  have hW := Pool.countP_set (p := Point.inWriteAt h) hi z
  have hle := ht.mutex
  rw [hm, hm', if_neg (by decide), if_pos rfl] at hM
  rw [hc, Nat.add_right_cancel_iff] at hC
  rw [hw, Nat.add_right_cancel_iff] at hW
  have hM0 : ts.countP (Point.mutex h) = 0 := by omega
  refine ⟨?_, by omega, ?_, ?_, ?_, fun h0 => ?_, ?_, ht.calm_set hcalm⟩
  · rw [Kernel.setMap_self]
    congr 1
    omega
  · rw [Kernel.setMap_of_map_ne _ (by decide), ht.count, hC]
  · rw [Kernel.setMap_of_map_ne _ (by decide), ht.write, hW]
  · rw [hW]
    exact ht.exclusive
  · omega
  · rw [hC]
    exact ht.agrees_set hi (hself (ht.resting hM0)) (.inl ⟨rfl, rfl⟩)

lemma pass_v (ht : Tally h k ts g) (hi : ts[i]? = some p) {r : Unit}
    (hh : Kernel.handle (.v .semaphoreRead h) k = .ok (r, k')) (hm : p.mutex h = true) (hm' : z.mutex h = false)
    (hc : z.counted h = p.counted h) (hw : z.inWriteAt h = p.inWriteAt h)
    (hg : g = decide (0 < ts.countP (Point.counted h))) (hcalm : z.Calm h) : Tally h k' (ts.set i z) g := by
  obtain ⟨v, hv, rfl⟩ := Kernel.handle_v hh
  rw [ht.read] at hv
  cases hv
  have hM := Pool.countP_set (p := Point.mutex h) hi z
  have hC := Pool.countP_set (p := Point.counted h) hi z
  have hW := Pool.countP_set (p := Point.inWriteAt h) hi z
  have hle := ht.mutex
  rw [hm, hm', if_pos rfl, if_neg (by decide)] at hM
  rw [hc, Nat.add_right_cancel_iff] at hC
  rw [hw, Nat.add_right_cancel_iff] at hW
  refine ⟨?_, by omega, ?_, ?_, ?_, fun _ => by rw [hC]; exact hg, ?_, ht.calm_set hcalm⟩
  · rw [Kernel.setMap_self]
    congr 1
    omega
  · rw [Kernel.setMap_of_map_ne _ (by decide), ht.count, hC]
  · rw [Kernel.setMap_of_map_ne _ (by decide), ht.write, hW]
  · rw [hW]
    exact ht.exclusive
  · rw [hC]
    exact ht.agrees_set hi (agrees_of_not_mutex hm' _ _) (.inl ⟨rfl, rfl⟩)

lemma pass_assign (ht : Tally h k ts g) (hi : ts[i]? = some p) (hm : p.mutex h = true) (hm' : z.mutex h = true)
    (hw : z.inWriteAt h = p.inWriteAt h) {c : ℕ} (hC : (ts.set i z).countP (Point.counted h) = c)
    (hself : z.Agrees h c g) (hcalm : z.Calm h) : Tally h (k.setMap .readerCount h c) (ts.set i z) g := by
  have hM := Pool.countP_set (p := Point.mutex h) hi z
  have hW := Pool.countP_set (p := Point.inWriteAt h) hi z
  have hle := ht.mutex
  rw [hm, hm', Nat.add_right_cancel_iff] at hM
  rw [hw, Nat.add_right_cancel_iff] at hW
  have hpos : 0 < ts.countP (Point.mutex h) := List.countP_pos_iff.mpr ⟨p, List.mem_of_getElem? hi, hm⟩
  refine ⟨?_, by omega, ?_, ?_, ?_, fun _ => by omega, ?_, ht.calm_set hcalm⟩
  · rw [Kernel.setMap_of_map_ne _ (by decide), ht.read, hM]
  · rw [Kernel.setMap_self, hC]
  · rw [Kernel.setMap_of_map_ne _ (by decide), ht.write, hW]
  · rw [hW]
    exact ht.exclusive
  · rw [hC]
    exact ht.agrees_set hi hself (.inr (by rw [hm]; exact hle))

lemma pass_cross (ht : Tally h k ts g) (hi : ts[i]? = some p) (hm : p.mutex h = true) (hm' : z.mutex h = true)
    (hc : z.counted h = p.counted h) (hw : z.inWriteAt h = p.inWriteAt h) {g' : Bool}
    (hex : ts.countP (Point.inWriteAt h) + g'.toNat ≤ 1) {v : ℤ}
    (hv : v = 1 - (ts.countP (Point.inWriteAt h) + g'.toNat)) (hself : z.Agrees h (ts.countP (Point.counted h)) g')
    (hcalm : z.Calm h) : Tally h (k.setMap .semaphoreWrite h v) (ts.set i z) g' := by
  have hM := Pool.countP_set (p := Point.mutex h) hi z
  have hC := Pool.countP_set (p := Point.counted h) hi z
  have hW := Pool.countP_set (p := Point.inWriteAt h) hi z
  have hle := ht.mutex
  rw [hm, hm', Nat.add_right_cancel_iff] at hM
  rw [hc, Nat.add_right_cancel_iff] at hC
  rw [hw, Nat.add_right_cancel_iff] at hW
  have hpos : 0 < ts.countP (Point.mutex h) := List.countP_pos_iff.mpr ⟨p, List.mem_of_getElem? hi, hm⟩
  refine ⟨?_, by omega, ?_, ?_, ?_, fun _ => by omega, ?_, ht.calm_set hcalm⟩
  · rw [Kernel.setMap_of_map_ne _ (by decide), ht.read, hM]
  · rw [Kernel.setMap_of_map_ne _ (by decide), ht.count, hC]
  · rw [Kernel.setMap_self, hW, hv]
  · rw [hW]
    exact hex
  · rw [hC]
    exact ht.agrees_set hi hself (.inr (by rw [hm]; exact hle))

lemma lock (ht : Tally h k ts g) (hi : ts[i]? = some p) (hm : p.mutex h = false) (hm' : z.mutex h = false)
    (hc : z.counted h = p.counted h) {v : ℤ}
    (hex : (ts.set i z).countP (Point.inWriteAt h) + g.toNat ≤ 1)
    (hv : v = 1 - ((ts.set i z).countP (Point.inWriteAt h) + g.toNat)) (hcalm : z.Calm h) :
    Tally h (k.setMap .semaphoreWrite h v) (ts.set i z) g := by
  have hM := Pool.countP_set (p := Point.mutex h) hi z
  have hC := Pool.countP_set (p := Point.counted h) hi z
  rw [hm, hm', Nat.add_right_cancel_iff] at hM
  rw [hc, Nat.add_right_cancel_iff] at hC
  refine ⟨?_, by rw [hM]; exact ht.mutex, ?_, ?_, hex, by rw [hM, hC]; exact ht.resting, ?_, ht.calm_set hcalm⟩
  · rw [Kernel.setMap_of_map_ne _ (by decide), ht.read, hM]
  · rw [Kernel.setMap_of_map_ne _ (by decide), ht.count, hC]
  · rw [Kernel.setMap_self, hv]
  · rw [hC]
    exact ht.agrees_set hi (agrees_of_not_mutex hm' _ _) (.inl ⟨rfl, rfl⟩)

lemma spare (ht : Tally h k ts g) (hi : ts[i]? = some p) {e : Request} {r : e.Reply} (he : e.Spares h)
    (hh : Kernel.handle e k = .ok (r, k')) (hm : z.mutex h = p.mutex h) (hc : z.counted h = p.counted h)
    (hw : z.inWriteAt h = p.inWriteAt h) (hself : z.Agrees h (ts.countP (Point.counted h)) g) (hcalm : z.Calm h) :
    Tally h k' (ts.set i z) g :=
  ht.keep hi (fun _ hm => Kernel.handle_spares he hh hm) hm hc hw hself hcalm

lemma count_found (ht : Tally h k ts g) {r : Option ℤ}
    (hh : Kernel.handle (.find .readerCount h) k = .ok (r, k')) :
    r = some (ts.countP (Point.counted h) : ℤ) ∧ k = k' := by
  cases hh
  exact ⟨ht.count, rfl⟩

lemma counted_pos (hi : ts[i]? = some p) (hp : p.counted h = true) : 0 < ts.countP (Point.counted h) :=
  List.countP_pos_iff.mpr ⟨p, List.mem_of_getElem? hi, hp⟩

lemma gateAsk_spares (hf : f.hdrSector ≠ h) {amount last : ℤ} {cross : Request} (hx : cross.Spares h)
    {inside : Gate → Point} {out : Point} {gate : Gate} {e : Request} {c : e.Reply → Point}
    (hask : Point.gateAsk f amount last cross inside out gate = ⟨e, c⟩) (r : e.Reply) :
    e.Spares h ∧ ((∃ gate', c r = inside gate') ∨ c r = out) := by
  cases gate with
  | held =>
    cases hask
    refine ⟨trivial, .inl ?_⟩
    cases r with
    | none => exact ⟨_, rfl⟩
    | some count => exact ⟨_, rfl⟩
  | found count =>
    cases hask
    exact ⟨.inr hf, .inl ⟨_, rfl⟩⟩
  | changed =>
    cases hask
    refine ⟨trivial, .inl ?_⟩
    cases r with
    | none => exact ⟨_, rfl⟩
    | some count => exact ⟨_, rfl⟩
  | missing =>
    cases hask
    exact ⟨.inr hf, .inl ⟨_, rfl⟩⟩
  | crossing =>
    cases hask
    exact ⟨hx, .inl ⟨_, rfl⟩⟩
  | releasing =>
    cases hask
    exact ⟨hf, .inr rfl⟩

lemma enter_step (ht : Tally h k ts g) {gate : Gate} {n : ℤ} (hi : ts[i]? = some (.enter gate f n))
    (hf : f.hdrSector = h) {e : Request} {c : e.Reply → Point} {r : e.Reply}
    (hask : Point.gateAsk f 1 1 (.p .semaphoreWrite f.hdrSector) (.enter · f n)
      (.reading f (f.readAt n f.seekPosition)) gate = ⟨e, c⟩) (hh : Kernel.handle e k = .ok (r, k')) :
    ∃ g', Tally h k' (ts.set i (c r)) g' := by
  have hself : gate.Entering (ts.countP (Point.counted h)) g := ht.agrees _ (List.mem_of_getElem? hi) hf
  subst hf
  cases gate with
  | held =>
    cases hask
    obtain ⟨rfl, rfl⟩ := ht.count_found hh
    exact ⟨g, ht.keep hi (fun _ _ => rfl) rfl rfl rfl (fun _ => ⟨rfl, hself⟩) trivial⟩
  | found count =>
    cases hask
    cases hh
    obtain ⟨rfl, hg⟩ := hself
    have hC := Pool.countP_set (p := Point.counted f.hdrSector) hi (.enter .changed f n)
    simp only [Point.counted, Gate.moved, decide_true, Bool.and_true, Bool.and_false, Bool.false_eq_true, if_false,
      if_true, Nat.add_zero] at hC
    have hself' : g = decide (1 < ts.countP (Point.counted f.hdrSector) + 1) := by
      rw [hg]
      simp
    have ht' := ht.pass_assign hi (z := .enter .changed f n) (decide_eq_true rfl) (decide_eq_true rfl) rfl hC
      (fun _ => hself') trivial
    rw [Nat.cast_add, Nat.cast_one] at ht'
    exact ⟨g, ht'⟩
  | changed =>
    cases hask
    obtain ⟨rfl, rfl⟩ := ht.count_found hh
    have hpos := counted_pos (h := f.hdrSector) hi (by simp [Point.counted, Gate.moved])
    change g = _ at hself
    refine ⟨g, ?_⟩
    change Tally _ _ (ts.set i (.enter (Gate.tested 1 _) f n)) g
    rw [Gate.tested]
    split
    · have h1 : ts.countP (Point.counted f.hdrSector) = 1 := by omega
      exact ht.keep hi (fun _ _ => rfl) rfl rfl rfl (fun _ => ⟨h1, by rw [hself, h1]; rfl⟩) trivial
    · refine ht.keep hi (fun _ _ => rfl) rfl rfl rfl (fun _ => ?_) trivial
      change g = true
      rw [hself, decide_eq_true]
      omega
  | missing => exact hself.elim
  | crossing =>
    cases hask
    obtain ⟨v, hv, hne, rfl⟩ := Kernel.handle_p hh
    obtain ⟨-, rfl⟩ := hself
    rw [ht.write] at hv
    cases hv
    have hex := ht.exclusive
    simp only [Bool.toNat_false, Nat.add_zero, Nat.cast_zero, Int.add_zero] at hex hne
    refine ⟨true, ht.pass_cross (z := .enter .releasing f n) hi
      (decide_eq_true rfl) (decide_eq_true rfl) rfl rfl ?_ ?_
      (fun _ => rfl) trivial⟩
    · rw [Bool.toNat_true]
      omega
    · rw [Bool.toNat_true, Bool.toNat_false]
      omega
  | releasing =>
    cases hask
    have hpos := counted_pos (h := f.hdrSector) hi (by simp [Point.counted, Gate.moved])
    refine ⟨g, ht.pass_v hi hh (decide_eq_true rfl) rfl (by simp [Point.counted, Gate.moved]) rfl ?_
      (f.reads_readAt _ _).keepsMaps.quiet⟩
    rw [hself, decide_eq_true hpos]

lemma leave_step (ht : Tally h k ts g) {gate : Gate} {result : List Byte}
    (hi : ts[i]? = some (.leave gate f result))
    (hf : f.hdrSector = h) {e : Request} {c : e.Reply → Point} {r : e.Reply}
    (hask : Point.gateAsk f (-1) 0 (.v .semaphoreWrite f.hdrSector) (.leave · f result)
      (.idle (Point.afterRead f result)) gate = ⟨e, c⟩) (hh : Kernel.handle e k = .ok (r, k')) :
    ∃ g', Tally h k' (ts.set i (c r)) g' := by
  have hself : gate.Leaving (ts.countP (Point.counted h)) g := ht.agrees _ (List.mem_of_getElem? hi) hf
  subst hf
  cases gate with
  | held =>
    cases hask
    obtain ⟨rfl, rfl⟩ := ht.count_found hh
    exact ⟨g, ht.keep hi (fun _ _ => rfl) rfl rfl rfl (fun _ => ⟨rfl, hself⟩) trivial⟩
  | found count =>
    cases hask
    cases hh
    obtain ⟨rfl, hg⟩ := hself
    have hpos := counted_pos (h := f.hdrSector) hi (by simp [Point.counted, Gate.moved])
    have hC := Pool.countP_set (p := Point.counted f.hdrSector) hi (.leave .changed f result)
    simp only [Point.counted, Gate.moved, decide_true, Bool.and_true,
      Bool.not_true, Bool.not_false, Bool.and_false,
      Bool.false_eq_true, if_false, if_true, Nat.add_zero] at hC
    have ht' := ht.pass_assign (c := ts.countP (Point.counted f.hdrSector) - 1) hi (z := .leave .changed f result)
      (decide_eq_true rfl) (decide_eq_true rfl) rfl (by omega) (fun _ => hg) trivial
    rw [Nat.cast_sub hpos, Nat.cast_one] at ht'
    exact ⟨g, ht'⟩
  | changed =>
    cases hask
    obtain ⟨rfl, rfl⟩ := ht.count_found hh
    change g = true at hself
    refine ⟨g, ?_⟩
    change Tally _ _ (ts.set i (.leave (Gate.tested 0 _) f result)) g
    rw [Gate.tested]
    split
    · have h0 : ts.countP (Point.counted f.hdrSector) = 0 := by omega
      exact ht.keep hi (fun _ _ => rfl) rfl rfl rfl (fun _ => ⟨h0, hself⟩) trivial
    · refine ht.keep hi (fun _ _ => rfl) rfl rfl rfl (fun _ => ?_) trivial
      change g = decide _
      rw [hself, eq_comm, decide_eq_true_eq]
      omega
  | missing => exact hself.elim
  | crossing =>
    cases hask
    obtain ⟨v, hv, rfl⟩ := Kernel.handle_v hh
    obtain ⟨h0, rfl⟩ := hself
    rw [ht.write] at hv
    cases hv
    have hex := ht.exclusive
    simp only [Bool.toNat_true] at hex
    refine ⟨false, ht.pass_cross (z := .leave .releasing f result) hi
      (decide_eq_true rfl) (decide_eq_true rfl) rfl rfl
      ?_ ?_ (fun _ => ?_) trivial⟩
    · rw [Bool.toNat_false]
      omega
    · rw [Bool.toNat_true, Bool.toNat_false]
      omega
    · change false = decide _
      rw [h0]
      rfl
  | releasing =>
    cases hask
    exact ⟨g, ht.pass_v hi hh (decide_eq_true rfl) rfl (by simp [Point.counted, Gate.moved]) rfl hself trivial⟩

lemma lock_step (ht : Tally h k ts g) (hi : ts[i]? = some p) (hm : p.mutex h = false) (hc : p.counted h = false)
    (hw : p.inWriteAt h = false) (f : OpenFile) (src : List Byte) (n : ℤ) {r : Unit}
    (hh : Kernel.handle (.p .semaphoreWrite f.hdrSector) k = .ok (r, k')) :
    Tally h k' (ts.set i (.writing f (f.writeAt src n f.seekPosition))) g := by
  have hcalm : (Point.writing f (f.writeAt src n f.seekPosition)).Calm h := (f.keepsMaps_writeAt _ _ _).quiet
  by_cases hf : f.hdrSector = h
  · subst hf
    obtain ⟨v, hv, hne, rfl⟩ := Kernel.handle_p hh
    rw [ht.write] at hv
    cases hv
    have hex := ht.exclusive
    have hW := Pool.countP_set (p := Point.inWriteAt f.hdrSector) hi (.writing f (f.writeAt src n f.seekPosition))
    have hw' : (Point.writing f (f.writeAt src n f.seekPosition)).inWriteAt f.hdrSector = true :=
      decide_eq_true rfl
    rw [hw, hw', if_neg (by decide), if_pos rfl] at hW
    refine ht.lock hi hm rfl (by rw [hc]; rfl) ?_ ?_ hcalm
    · omega
    · omega
  · exact ht.spare hi (e := .p .semaphoreWrite f.hdrSector) hf hh hm.symm hc.symm
      (by rw [hw]; exact decide_eq_false hf) trivial hcalm

lemma quiet_step {α : Type} (ht : Tally h k ts g) {e : Request}
    {c : e.Reply → Nachos α} (hq : Quiet h (.request e c))
    {r : e.Reply} (hh : Kernel.handle e k = .ok (r, k')) : e.Spares h ∧ Quiet h (c r) :=
  ⟨hq.within.1, ⟨hq.within.2 r (Kernel.handle_present ht.present hh)⟩⟩

lemma extend_step (ht : Tally h k ts g) {rest : Nachos OpenFile} {src : List Byte} {n : ℤ} (hi : ts[i]? = some p)
    (hm : p.mutex h = false) (hc : p.counted h = false) (hw : p.inWriteAt h = false)
    (hq : Quiet h rest) {e : Request}
    {c : e.Reply → Point} {r : e.Reply} (hask : Point.extendAsk f src n rest = ⟨e, c⟩)
    (hh : Kernel.handle e k = .ok (r, k')) : Tally h k' (ts.set i (c r)) g := by
  cases rest with
  | pure f' =>
    cases hask
    exact ht.lock_step hi hm hc hw f' src n hh
  | request e c =>
    cases hask
    obtain ⟨hs, hq'⟩ := ht.quiet_step hq hh
    exact ht.spare hi hs hh hm.symm hc.symm hw.symm trivial hq'

lemma ask_step {fm : OpenFile} (ht : Tally h k ts g) (hi : ts[i]? = some p) {e : Request} {c : e.Reply → Point}
    {r : e.Reply} (hask : p.ask fm = some ⟨e, c⟩) (hh : Kernel.handle e k = .ok (r, k')) :
    ∃ g', Tally h k' (ts.set i (c r)) g' := by
  have hcalm := ht.calm p (List.mem_of_getElem? hi)
  cases p with
  | absent | idle => cases hask
  | opening rest =>
    cases rest with
    | pure f => cases hask
    | request e c =>
      cases hask
      obtain ⟨hs, hq⟩ := ht.quiet_step hcalm hh
      exact ⟨g, ht.spare hi hs hh rfl rfl rfl trivial hq⟩
  | closing rest =>
    cases rest with
    | pure f => cases hask
    | request e c =>
      cases hask
      obtain ⟨hs, hq⟩ := ht.quiet_step hcalm hh
      exact ⟨g, ht.spare hi hs hh rfl rfl rfl trivial hq⟩
  | arriving f n =>
    cases hask
    by_cases hf : f.hdrSector = h
    · subst hf
      exact ⟨g, ht.pass_p hi hh rfl (decide_eq_true rfl) (by simp [Point.counted, Gate.moved]) rfl
        (fun hg _ => hg) trivial⟩
    · exact ⟨g, ht.spare hi (e := .p .semaphoreRead f.hdrSector) hf hh (decide_eq_false hf)
        (by simp [Point.counted, Gate.moved]) rfl (fun he => absurd he hf) trivial⟩
  | enter gate f n =>
    by_cases hf : f.hdrSector = h
    · exact ht.enter_step hi hf (Option.some.inj hask) hh
    · obtain ⟨hs, hc⟩ := gateAsk_spares hf (show (Request.p .semaphoreWrite f.hdrSector).Spares h from hf)
        (Option.some.inj hask) r
      rcases hc with ⟨gate', hc⟩ | hc
      · rw [hc]
        exact ⟨g, ht.spare hi hs hh rfl (by simp [Point.counted, hf]) rfl (fun he => absurd he hf) trivial⟩
      · rw [hc]
        exact ⟨g, ht.spare hi hs hh (by simp [Point.mutex, hf]) (by simp [Point.counted, hf]) rfl trivial
          (f.reads_readAt _ _).keepsMaps.quiet⟩
  | reading f rest =>
    cases rest with
    | pure result =>
      cases hask
      by_cases hf : f.hdrSector = h
      · subst hf
        have hpos := counted_pos (h := f.hdrSector) hi (decide_eq_true rfl)
        exact ⟨g, ht.pass_p hi hh rfl (decide_eq_true rfl) (by simp [Point.counted, Gate.moved]) rfl
          (fun hg _ => by rw [hg]; exact decide_eq_true hpos) trivial⟩
      · exact ⟨g, ht.spare hi (e := .p .semaphoreRead f.hdrSector) hf hh (decide_eq_false hf)
          (by simp [Point.counted, hf]) rfl (fun he => absurd he hf) trivial⟩
    | request e c =>
      cases hask
      obtain ⟨hs, hq⟩ := ht.quiet_step hcalm hh
      exact ⟨g, ht.spare hi hs hh rfl rfl rfl trivial hq⟩
  | leave gate f result =>
    by_cases hf : f.hdrSector = h
    · exact ht.leave_step hi hf (Option.some.inj hask) hh
    · obtain ⟨hs, hc⟩ := gateAsk_spares hf (show (Request.v .semaphoreWrite f.hdrSector).Spares h from hf)
        (Option.some.inj hask) r
      rcases hc with ⟨gate', hc⟩ | hc
      · rw [hc]
        exact ⟨g, ht.spare hi hs hh rfl (by simp [Point.counted, hf]) rfl (fun he => absurd he hf) trivial⟩
      · rw [hc]
        exact ⟨g, ht.spare hi hs hh (by simp [Point.mutex, hf]) (by simp [Point.counted, hf]) rfl trivial trivial⟩
  | beyond f src n =>
    have hq : Quiet h (OpenFile.extend fm f n) := (OpenFile.keepsMaps_extend fm f n).quiet
    rw [Point.ask, Option.some_inj] at hask
    exact ⟨g, ht.extend_step hi rfl rfl rfl hq hask hh⟩
  | extending f src n rest =>
    rw [Point.ask, Option.some_inj] at hask
    exact ⟨g, ht.extend_step hi rfl rfl rfl hcalm hask hh⟩
  | locking f src n =>
    cases hask
    exact ⟨g, ht.lock_step hi rfl rfl rfl f src n hh⟩
  | writing f rest =>
    cases rest with
    | pure result =>
      cases hask
      by_cases hf : f.hdrSector = h
      · subst hf
        obtain ⟨v, hv, rfl⟩ := Kernel.handle_v hh
        rw [ht.write] at hv
        cases hv
        have hex := ht.exclusive
        have hW := Pool.countP_set (p := Point.inWriteAt f.hdrSector) hi (.idle (Point.afterWrite f result))
        have hw : (Point.writing f (.pure result)).inWriteAt f.hdrSector = true := decide_eq_true rfl
        have hw' : (Point.idle (Point.afterWrite f result)).inWriteAt f.hdrSector = false := rfl
        rw [hw, hw', if_pos rfl, if_neg (by decide)] at hW
        refine ⟨g, ht.lock (z := .idle (Point.afterWrite f result)) hi rfl rfl rfl ?_ ?_ trivial⟩
        · omega
        · omega
      · exact ⟨g, ht.spare hi (e := .v .semaphoreWrite f.hdrSector) hf hh rfl rfl (decide_eq_false hf).symm trivial
          trivial⟩
    | request e c =>
      cases hask
      obtain ⟨hs, hq⟩ := ht.quiet_step hcalm hh
      exact ⟨g, ht.spare hi hs hh rfl rfl rfl trivial hq⟩

lemma turn_step {cmd : Command} (ht : Tally h k ts g) (hi : ts[i]? = some p) (hturn : p.turn cmd = some z) :
    Tally h k (ts.set i z) g := by
  have hcalm := ht.calm p (List.mem_of_getElem? hi)
  have hmaps : ∀ m, m ≠ KernelMap.openFileCount → k.maps m h = k.maps m h := fun _ _ => rfl
  rw [Point.turn.eq_def] at hturn
  split at hturn
  case h_1 => cases hturn; exact ht.keep hi hmaps rfl rfl rfl trivial trivial
  case h_2 => cases hturn; exact ht.keep hi hmaps rfl rfl rfl trivial trivial
  case h_3 s => cases hturn; exact ht.keep hi hmaps rfl rfl rfl trivial (quiet_openAt s)
  case h_4 f => cases hturn; exact ht.keep hi hmaps rfl rfl rfl trivial (quiet_close f)
  case h_5 => cases hturn; exact ht.keep hi hmaps rfl rfl rfl trivial trivial
  case h_6 => cases hturn; exact ht.keep hi hmaps rfl rfl rfl trivial trivial
  case h_7 src n f =>
    cases hturn
    rw [Point.startWrite]
    split
    · exact ht.keep hi hmaps rfl rfl rfl trivial trivial
    · exact ht.keep hi hmaps rfl rfl rfl trivial trivial
  case h_8 => cases hturn

lemma move_step {fm : OpenFile} {cmd : Command} (ht : Tally h k ts g) (hi : ts[i]? = some p)
    (hm : p.move fm cmd k = some (k', z)) : ∃ g', Tally h k' (ts.set i z) g' := by
  rcases Point.move_cases hm with ⟨e, c, r, -, hask, hh, rfl⟩ | ⟨hturn, rfl⟩
  · exact ht.ask_step hi hask hh
  · exact ⟨g, ht.turn_step hi hturn⟩

end Tally

namespace Tally

variable {h : ℤ} {k : Kernel} {ts : List Point} {g : Bool} {i j : ℕ} {p q : Point}

lemma start (hrest : AtRest k.maps) (hmaps : ∀ m, k.maps m h ≠ none)
    (hts : ∀ p ∈ ts, p = .absent ∨ ∃ f, p = .idle f) : Tally h k ts false := by
  have hvalue : ∀ {m : KernelMap} {v : ℤ}, (∀ w, m.Rests w → w = v) → k.maps m h = some v := by
    intro m v hv
    obtain ⟨w, hw⟩ := Option.ne_none_iff_exists'.mp (hmaps m)
    rw [hw, hv w (hrest m h w hw)]
  have hnone : ∀ {t : Point → Bool}, t .absent = false → (∀ f, t (.idle f) = false) → ts.countP t = 0 := by
    intro t ha hidle
    refine List.countP_eq_zero.mpr fun p hp => ?_
    rcases hts p hp with rfl | ⟨f, rfl⟩
    · simp [ha]
    · simp [hidle f]
  have hM : ts.countP (Point.mutex h) = 0 := hnone rfl fun _ => rfl
  have hC : ts.countP (Point.counted h) = 0 := hnone rfl fun _ => rfl
  have hW : ts.countP (Point.inWriteAt h) = 0 := hnone rfl fun _ => rfl
  refine ⟨?_, by omega, ?_, ?_, by rw [hW]; decide, fun _ => by rw [hC]; rfl, fun p hp => ?_, fun p hp => ?_⟩
  · rw [hM]
    exact hvalue fun _ hw => hw
  · rw [hC]
    exact hvalue fun _ hw => hw
  · rw [hW]
    exact hvalue fun _ hw => hw
  · rcases hts p hp with rfl | ⟨f, rfl⟩ <;> trivial
  · rcases hts p hp with rfl | ⟨f, rfl⟩ <;> trivial

lemma readers_hold (ht : Tally h k ts g) (hi : ts[i]? = some p) (hp : p.inReadAt h = true) : g = true := by
  have hpc : p.counted h = true ∧ p.mutex h = false := by
    cases p with
    | reading f rest => exact ⟨hp, rfl⟩
    | absent | opening | idle | closing | arriving | enter | leave | beyond | extending | locking | writing =>
      cases hp
  have hpos := counted_pos hi hpc.1
  rcases Nat.eq_zero_or_pos (ts.countP (Point.mutex h)) with hM | hM
  · rw [ht.resting hM, decide_eq_true hpos]
  · -- some other thread is in a passage, and it is not the first reader
    obtain ⟨q, hq, hqm⟩ := List.countP_pos_iff.mp hM
    obtain ⟨j, hj⟩ := List.mem_iff_getElem?.mp hq
    have hij : i ≠ j := by
      rintro rfl
      rw [hi] at hj
      cases hj
      rw [hpc.2] at hqm
      cases hqm
    have htwo : q.counted h = true → 2 ≤ ts.countP (Point.counted h) := Pool.two_le_countP hi hj hij hpc.1
    have hagree := ht.agrees q hq
    cases q with
    | enter gate f n =>
      have hf : f.hdrSector = h := of_decide_eq_true hqm
      have hg := hagree hf
      cases gate with
      | held => rw [show g = _ from hg, decide_eq_true hpos]
      | found count => rw [hg.2, decide_eq_true hpos]
      | changed =>
        have := htwo (by simp [Point.counted, hf, Gate.moved])
        rw [show g = _ from hg, decide_eq_true (by omega)]
      | missing => exact hg.elim
      | crossing =>
        have := htwo (by simp [Point.counted, hf, Gate.moved])
        have := hg.1
        omega
      | releasing => exact hg
    | leave gate f result =>
      have hg := hagree (of_decide_eq_true hqm)
      cases gate with
      | held => exact hg
      | found count => exact hg.2
      | changed => exact hg
      | missing => exact hg.elim
      | crossing => exact hg.2
      | releasing => rw [show g = _ from hg, decide_eq_true hpos]
    | absent | opening | idle | closing | arriving | reading | beyond | extending | locking | writing => cases hqm

lemma exclusion (ht : Tally h k ts g) (hij : i ≠ j) (hi : ts[i]? = some p) (hj : ts[j]? = some q)
    (hp : p.inWriteAt h = true) : q.inWriteAt h = false ∧ q.inReadAt h = false := by
  have hex := ht.exclusive
  constructor
  · rw [Bool.eq_false_iff]
    intro hq
    have := Pool.two_le_countP hi hj hij hp hq
    omega
  · rw [Bool.eq_false_iff]
    intro hq
    have hW : 0 < ts.countP (Point.inWriteAt h) := List.countP_pos_iff.mpr ⟨p, List.mem_of_getElem? hi, hp⟩
    rw [ht.readers_hold hj hq, Bool.toNat_true] at hex
    omega

lemma semaphores (ht : Tally h k ts g) (hts : ∀ p ∈ ts, p.inside h = false) :
    k.maps .semaphoreRead h = some 1 ∧ k.maps .semaphoreWrite h = some 1 := by
  have hnone : ∀ {t : Point → Bool}, (∀ p, t p = true → p.inside h = true) → ts.countP t = 0 := by
    intro t hle
    refine List.countP_eq_zero.mpr fun p hp htp => ?_
    have := hle p htp
    rw [hts p hp] at this
    cases this
  have hM : ts.countP (Point.mutex h) = 0 := hnone fun p hp => by
    cases p <;> first | exact hp | cases hp
  have hC : ts.countP (Point.counted h) = 0 := hnone fun p hp => by
    cases p <;> first | exact hp | exact (Bool.and_eq_true_iff.mp hp).1 | cases hp
  have hW : ts.countP (Point.inWriteAt h) = 0 := hnone fun p hp => by
    cases p <;> first | exact hp | cases hp
  have hg : g = false := by
    rw [ht.resting hM, hC]
    rfl
  rw [ht.read, ht.write, hM, hW, hg]
  exact ⟨rfl, rfl⟩

end Tally

lemma OpenFile.new_inv {s : ℤ} {k k' : Kernel} {f : OpenFile} (hrest : AtRest k.maps)
    (he : exec (OpenFile.new s) k = .ok (f, k')) : AtRest k'.maps ∧ ∀ m, k'.maps m s ≠ none := by
  obtain ⟨hdr, t, hfetch, -⟩ := exec_bind_ok.mp he
  obtain ⟨data, t', hread, -⟩ := exec_bind_ok.mp hfetch
  have hs := (exec_read_ok.mp hread).1
  obtain ⟨k₁, he₁, -, -, hr, hm, -⟩ := exec_new hs k
  rw [he₁] at he
  cases he
  exact ⟨hr hrest, hm⟩

/-- A sector on which a handle has been opened, and then any number of threads with any handles. -/
theorem readers_writers_exclusion (fm f₀ : OpenFile) (h : ℤ) (k₀ k : Kernel) (ts : List Point) (a : Machine)
    (hrest : AtRest k₀.maps) (hopen : exec (OpenFile.new h) k₀ = .ok (f₀, k))
    (hts : ∀ p ∈ ts, p = .absent ∨ ∃ f, p = .idle f)
    (hrun : Reaches (Pool.Moves (Point.move fm)) (fun _ _ => True) ⟨k, ts⟩ a) :
    (∀ (i j : ℕ) (p q : Point), i ≠ j → a.threads[i]? = some p → a.threads[j]? = some q → p.inWriteAt h = true →
      q.inWriteAt h = false ∧ q.inReadAt h = false) ∧
    a.shared.maps .readerCount h = some (a.threads.countP (Point.counted h) : ℤ) ∧
    ((∀ p ∈ a.threads, p.inside h = false) →
      a.shared.maps .semaphoreRead h = some 1 ∧ a.shared.maps .semaphoreWrite h = some 1) := by
  obtain ⟨hrest', hmaps⟩ := OpenFile.new_inv hrest hopen
  have hinv : ∃ g, Tally h a.shared a.threads g := by
    refine hrun.invariant (I := fun b => ∃ g, Tally h b.shared b.threads g)
        ?_ ⟨false, Tally.start hrest' hmaps hts⟩
    rintro ⟨i, cmd⟩ b b' ⟨g, ht⟩ - hmove
    cases hmove with
    | mk hi hm => exact ht.move_step hi hm
  obtain ⟨g, ht⟩ := hinv
  exact ⟨fun i j p q hij hi hj hp => ht.exclusion hij hi hj hp, ht.count, ht.semaphores⟩

theorem writer_excludes_second_thread :
    ∃ (f : OpenFile) (k : Kernel) (a : Machine), exec (OpenFile.new 5) Kernel.blank = .ok (f, k) ∧
      Reaches (Pool.Moves (Point.move f)) (fun _ _ => True) ⟨k, [.idle f, .idle f]⟩ a ∧
      (∃ p q, a.threads = [p, q] ∧ p.inWriteAt 5 = true ∧ q.inWriteAt 5 = false ∧ q.inReadAt 5 = false) := by
  have hrest : AtRest Kernel.blank.maps := fun _ _ _ hv => by cases hv
  obtain ⟨k, hopen, -, -, hr, hm, -⟩ := OpenFile.exec_new (s := 5) (by decide) Kernel.blank
  set f : OpenFile := ⟨hdrAt Kernel.blank.disk 5, 0, 5⟩ with hf
  have hsem : k.maps .semaphoreWrite 5 = some 1 := (hr hrest).semaphoreWrite (hm _)
  have hcall : Point.move f (.write [] 0) k (.idle f) = some (k, .locking f [] 0) := by
    have hlen : ¬int32 (f.seekPosition + 0) > f.hdr.fileLength := by
      change ¬(0 : ℤ) > 0
      omega
    rw [Point.move.eq_def]
    simp only [Point.turn, Point.startWrite, if_neg hlen, Option.map_some]
  have hp : Kernel.handle (.p .semaphoreWrite 5) k = .ok ((), k.setMap .semaphoreWrite 5 0) := by
    simp only [Kernel.handle, hsem]
    rfl
  have hlock : Point.move f .step k (.locking f [] 0) =
      some (k.setMap .semaphoreWrite 5 0, .writing f (f.writeAt [] 0 f.seekPosition)) := by
    rw [Point.move.eq_def]
    simp only [Point.ask, Point.lockAsk]
    rw [show f.hdrSector = 5 from rfl, hp]
  have hrun : Reaches (Pool.Moves (Point.move f)) (fun _ _ => True) ⟨k, [.idle f, .idle f]⟩
      ⟨k.setMap .semaphoreWrite 5 0, [.writing f (f.writeAt [] 0 f.seekPosition), .idle f]⟩ :=
    .step (0, .step) (.step (0, .write [] 0) .refl trivial (.mk rfl hcall)) trivial (.mk rfl hlock)
  have hex := (readers_writers_exclusion f f 5 Kernel.blank k [.idle f, .idle f] _ hrest hopen
    (fun p hp => by
      rw [List.mem_cons, List.mem_singleton, or_self] at hp
      exact .inr ⟨f, hp⟩) hrun).1 0 1 _ _ (by decide) rfl rfl rfl
  exact ⟨f, k, _, hopen, hrun, _, _, rfl, rfl, hex⟩

end NachosFileSys
