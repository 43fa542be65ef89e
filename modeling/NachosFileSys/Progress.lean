import NachosFileSys.Lib.Progress
import NachosFileSys.Conditions

namespace NachosFileSys

open Lib.Runs Lib.Threads

namespace ThreadState

variable {S C : Type}

def awake : ThreadState S C → Bool
  | .asleep .. => false
  | _ => true

end ThreadState

namespace Concurrent

section Work

variable {S M C K : Type} [DecidableEq S] {code : K → ℕ → C → Option (Stmt S M C)} {o : ℕ × K} {v₀ : S → ℤ}
  {σ σ' : Concurrent S M C}

lemma sum_map_set (rank : C → ℕ) {cs : List C} {t : ℕ} {c : C} (hc : cs[t]? = some c) (c' : C) :
    ((cs.set t c').map rank).sum + rank c = (cs.map rank).sum + rank c' := by
  induction cs generalizing t with
  | nil => simp at hc
  | cons x cs ih =>
    cases t with
    | zero =>
      obtain rfl : x = c := by simpa using hc
      simp
      omega
    | succ t =>
      have h := ih (t := t) (by simpa using hc)
      simp only [List.set_cons_succ, List.map_cons, List.sum_cons]
      omega

omit [DecidableEq S] in
lemma forall_points_set {P : C → Prop} {t : ℕ} {c : C} (hp' : σ'.points = σ.points.set t c)
    (h : ∀ x ∈ σ.points, P x)
    (hc : P c) : ∀ x ∈ σ'.points, P x := by
  intro x hx
  rw [hp'] at hx
  obtain hx | rfl := List.mem_or_eq_of_mem_set hx
  · exact h x hx
  · exact hc

omit [DecidableEq S] in
lemma exists_point_set {P : C → Prop} {t : ℕ} {c c' : C} (hp : σ.points[t]? = some c)
    (hp' : σ'.points = σ.points.set t c')
    (h : ∃ x ∈ σ.points, P x) (hc : P c → P c') : ∃ x ∈ σ'.points, P x := by
  obtain ⟨x, hx, hP⟩ := h
  obtain ⟨u, hu⟩ := List.mem_iff_getElem?.mp hx
  rcases eq_or_ne u t with rfl | hne
  · rw [hp] at hu
    cases hu
    exact ⟨c', by rw [hp']; exact List.mem_set (List.getElem?_eq_some_iff.mp hp).1 c', hc hP⟩
  · refine ⟨x, List.mem_of_getElem? (i := u) ?_, hP⟩
    rw [hp', List.getElem?_set_ne hne.symm, hu]

/-- What the threads and the memory have still to do. A thread that sleeps and is woken comes back to its `P`
with the same work, so that being awake counts for a half. -/
def workLeft (rank : C → ℕ) (owed : M → ℕ) (σ : Concurrent S M C) : ℕ :=
  2 * ((σ.points.map rank).sum + owed σ.memory) + σ.threads.countP ThreadState.awake

variable {rank : C → ℕ} {owed : M → ℕ}

omit [DecidableEq S] in
lemma workLeft_le (owed : M → ℕ) {bound : ℕ} (h : ∀ c ∈ σ.points, rank c ≤ bound) :
    workLeft rank owed σ ≤ (2 * bound + 1) * σ.points.length + 2 * owed σ.memory := by
  have hsum : (σ.points.map rank).sum ≤ bound * σ.points.length := by
    have := List.sum_le_card_nsmul (σ.points.map rank) bound (by simpa using h)
    simpa [mul_comm] using this
  have hcount : σ.threads.countP ThreadState.awake ≤ σ.points.length := by
    rw [points, List.length_map]
    exact List.countP_le_length
  rw [workLeft]
  nlinarith

omit [DecidableEq S] in
lemma Wants.awake {c next : C} {s : S} {st : ThreadState S C} (h : σ.Wants code o c s next)
    (hst : σ.threads[o.1]? = some st) : st.awake = true := by
  cases st with
  | asleep c' s' next' => exact absurd hst h.not_asleep
  | ready | woken => rfl

lemma Effect.workLeft_lt (h : Effect code o σ σ') (hd : Sited code σ)
    (hact : ∀ {c c' f m}, σ.points[o.1]? = some c → code o.2 o.1 c = some (.act f) → f σ.memory = .ok (m, c') →
      rank c' + owed m < rank c + owed σ.memory)
    (hp : ∀ {k c s next}, σ.points[o.1]? = some c → code k o.1 c = some (.p s next) → rank next < rank c)
    (hv : ∀ {c s next}, σ.points[o.1]? = some c → code o.2 o.1 c = some (.v s next) → rank next < rank c) :
    workLeft rank owed σ' < workLeft rank owed σ := by
  cases h with
  | @act c c' f m ht hc hf =>
    have hpoint : σ.points[o.1]? = some c := points_getElem? ht
    have hlt := hact hpoint hc hf
    have hsum := sum_map_set rank hpoint c'
    have hcount := Pool.countP_set (p := ThreadState.awake) ht (.ready c')
    simp only [ThreadState.awake, if_true] at hcount
    rw [workLeft, workLeft, points, List.map_set]
    simp only [points, ThreadState.point] at hsum ⊢
    omega
  | @sleep c s next ht hz =>
    obtain ⟨st, hst, hpoint, -⟩ := ht.getElem?
    have hself : (σ.threads.set o.1 (.asleep c s next)).map ThreadState.point = σ.points :=
      map_point_set_self hst hpoint.symm
    have hcount := Pool.countP_set (p := ThreadState.awake) hst (.asleep c s next)
    rw [ht.awake hst] at hcount
    simp only [ThreadState.awake, Bool.false_eq_true, if_true, if_false] at hcount
    rw [workLeft, workLeft, points, hself]
    dsimp only
    omega
  | @take c s next ht hz =>
    obtain ⟨st, hst, hpoint, -⟩ := ht.getElem?
    obtain ⟨k, hk⟩ := ht.called hd
    have hst' := points_getElem? hst
    rw [hpoint] at hst'
    have hlt := hp hst' hk
    have hsum := sum_map_set rank hst' next
    have hcount := Pool.countP_set (p := ThreadState.awake) hst (.ready next)
    rw [ht.awake hst] at hcount
    simp only [ThreadState.awake, if_true] at hcount
    rw [workLeft, workLeft, points, List.map_set]
    simp only [points, ThreadState.point] at hsum ⊢
    omega
  | @raise c s next ht hc hq =>
    have hpoint : σ.points[o.1]? = some c := points_getElem? ht
    have hlt := hv hpoint hc
    have hsum := sum_map_set rank hpoint next
    have hcount := Pool.countP_set (p := ThreadState.awake) ht (.ready next)
    simp only [ThreadState.awake, if_true] at hcount
    rw [workLeft, workLeft, points, List.map_set]
    simp only [points, ThreadState.point] at hsum ⊢
    omega
  | @wake c c' s next next' u queue ht hc hq hu hne =>
    have hpoint : σ.points[o.1]? = some c := points_getElem? ht
    have hlt := hv hpoint hc
    have hself : (σ.threads.set u (.woken c' s next')).map ThreadState.point = σ.points :=
      map_point_set_self hu rfl
    have hsum := sum_map_set rank hpoint next
    have ht' : (σ.threads.set u (.woken c' s next'))[o.1]? = some (.ready c) := by
      rw [List.getElem?_set_ne hne]
      exact ht
    have hcount₁ := Pool.countP_set (p := ThreadState.awake) hu (.woken c' s next')
    have hcount₂ := Pool.countP_set (p := ThreadState.awake) ht' (.ready next)
    simp only [ThreadState.awake, Bool.false_eq_true, if_true, if_false] at hcount₁ hcount₂
    rw [workLeft, workLeft, points, List.map_set, hself]
    simp only [ThreadState.point] at hsum ⊢
    omega

end Work

end Concurrent

open Concurrent

namespace MonitorPoint

variable {L : Type}

def plain : MonitorPoint L → Bool
  | .outside _ | .acquired _ | .inside _ | .releaseClear none _ | .releaseV none _ => true
  | _ => false

def rank (outer inner : L → ℕ) : MonitorPoint L → ℕ
  | .outside l => outer l
  | .acquired l => inner l + 1
  | .inside l => inner l
  | .releaseClear _ l => outer l + 2
  | .releaseV _ l => outer l + 1
  | _ => 0

end MonitorPoint

namespace Client

section LockOnly

variable {S D K L : Type} [DecidableEq S] {cl : Client S D K L} {σ σ' : World S D L} {o : ℕ × K} {v₀ : S → ℤ}
  {ok : K → D → L → Prop} {outer inner : L → ℕ} {owed : D → ℕ}

structure LockOnly (cl : Client S D K L) : Prop where
  wait (k : K) (t : ℕ) (l next : L) : cl.inner k t l ≠ some (.wait next)
  signal (k : K) (t : ℕ) (l next : L) : cl.inner k t l ≠ some (.signal next)
  broadcast (k : K) (t : ℕ) (l next : L) : cl.inner k t l ≠ some (.broadcast next)

structure Consumes (cl : Client S D K L) (ok : K → D → L → Prop) (outer inner : L → ℕ) (owed : D → ℕ) : Prop where
  outer_act {k : K} {t : ℕ} {l l' : L} {f : D → Except Fault (D × L)}
    {d d' : D} (hk : cl.outer k t l = some (.act f))
    (hf : f d = .ok (d', l')) (hok : ok k d l) : outer l' + owed d' < outer l + owed d
  acquire {k : K} {t : ℕ} {l l' : L} (hk : cl.outer k t l = some (.acquire l')) : inner l' + 1 < outer l
  outer_p {k : K} {t : ℕ} {l l' : L} {s : S} (hk : cl.outer k t l = some (.p s l')) : outer l' < outer l
  outer_v {k : K} {t : ℕ} {l l' : L} {s : S} (hk : cl.outer k t l = some (.v s l')) : outer l' < outer l
  inner_act {k : K} {t : ℕ} {l l' : L} {f : D → Except Fault (D × L)}
    {d d' : D} (hk : cl.inner k t l = some (.act f))
    (hf : f d = .ok (d', l')) : inner l' + owed d' < inner l + owed d
  release {k : K} {t : ℕ} {l l' : L} (hk : cl.inner k t l = some (.release l')) : outer l' + 2 < inner l
  inner_p {k : K} {t : ℕ} {l l' : L} {s : S} (hk : cl.inner k t l = some (.p s l')) : inner l' < inner l
  inner_v {k : K} {t : ℕ} {l l' : L} {s : S} (hk : cl.inner k t l = some (.v s l')) : inner l' < inner l

def Permits (ok : K → D → L → Prop) (σ : World S D L) (o : ℕ × K) : Prop :=
  ∀ l, σ.points[o.1]? = some (.outside l) → ok o.2 σ.memory.data l

lemma Consumes.workLeft_lt (h : Consumes cl ok outer inner owed) (hcl : LockOnly cl) (hs : Sane cl v₀ σ)
    (hplain : ∀ c ∈ σ.points, c.plain = true) (hok : Permits ok σ o) (hm : σ.Moves cl.code o σ') :
    workLeft (MonitorPoint.rank outer inner) (fun m => owed m.data) σ' <
      workLeft (MonitorPoint.rank outer inner) (fun m => owed m.data) σ := by
  apply (hs.steady.effect hm).workLeft_lt hs.steady.sited
  · intro c c' f m hp hc hf
    have hcp := hplain _ (List.mem_of_getElem? hp)
    cases acts_of_code hc hf with
    | outer hk hf' => exact h.outer_act hk hf' (hok _ hp)
    | inner hk hf' => exact h.inner_act hk hf'
    | release hk =>
      have hlt := h.release hk
      simp only [MonitorPoint.rank]
      omega
    | wait hk => exact absurd hk (hcl.wait _ _ _ _)
    | signal hk => exact absurd hk (hcl.signal _ _ _ _)
    | broadcast hk => exact absurd hk (hcl.broadcast _ _ _ _)
    | acquired | releaseClear => simp only [MonitorPoint.rank]; omega
    | releaseAssert | waitNew | waitAppend | signalAssert | signalTest | signalRemove | broadcastTest => cases hcp
  · intro k c s next hp hc
    have hcp := hplain _ (List.mem_of_getElem? hp)
    cases takes_of_code hc with
    | acquire hk => exact h.acquire hk
    | outer hk => exact h.outer_p hk
    | inner hk => exact h.inner_p hk
    | waitP | waitAcquire => cases hcp
  · intro c s next hp hc
    have hcp := hplain _ (List.mem_of_getElem? hp)
    cases raises_of_code hc with
    | outer hk => exact h.outer_v hk
    | inner hk => exact h.inner_v hk
    | @releaseV w l =>
      cases w with
      | none => simp only [MonitorPoint.rank, MonitorPoint.released]; omega
      | some w => cases hcp
    | signalV => cases hcp

lemma Sane.awake_moves (hs : Sane cl v₀ σ) (hfault : ∀ o e, ¬Fails cl o σ e)
    {t : ℕ} {st : ThreadState (Sem S) (MonitorPoint L)}
    (hst : σ.threads[t]? = some st) (hawake : st.awake = true) {k : K} (hc : cl.code k t st.point ≠ none) :
    ∃ σ', σ.Moves cl.code (t, k) σ' := by
  have hmove : ∃ r, σ.move cl.code (t, k) = some r := by
    cases st with
    | ready c =>
      obtain ⟨stmt, hstmt⟩ := Option.ne_none_iff_exists'.mp hc
      simp only [ThreadState.point] at hstmt
      simp only [Concurrent.move, hst, hstmt, Option.map_some]
      exact ⟨_, rfl⟩
    | woken c s next =>
      simp only [Concurrent.move, hst]
      exact ⟨_, rfl⟩
    | asleep c s next => cases hawake
  obtain ⟨r, hr⟩ := hmove
  cases r with
  | ok σ' => exact ⟨σ', hr⟩
  | error e => exact absurd (hs.fault hr) (hfault _ _)

lemma Sane.ready_moves (hs : Sane cl v₀ σ) (hfault : ∀ o e, ¬Fails cl o σ e) {t : ℕ} {c : MonitorPoint L}
    (hp : σ.points[t]? = some c) (hnp : ∀ k s next, cl.code k t c ≠ some (.p s next))
    {k : K} (hc : cl.code k t c ≠ none) :
    ∃ σ', σ.Moves cl.code (t, k) σ' := by
  rw [points, List.getElem?_map, Option.map_eq_some_iff] at hp
  obtain ⟨st, hst, rfl⟩ := hp
  refine hs.awake_moves hfault hst ?_ hc
  cases st with
  | ready | woken => rfl
  | asleep c s next =>
    obtain ⟨k, hk⟩ := hs.steady.sited t c s next (.inl hst)
    exact absurd hk (hnp k s next)

lemma Sane.handler_moves (hs : Sane cl v₀ σ) (hfault : ∀ o e, ¬Fails cl o σ e) (device back : L) (k : K)
    (hback : ∀ k t, ∃ s l, cl.outer k t back = some (.v s l)) (hok : ok k σ.memory.data back)
    (hdevice : ∀ k t, cl.outer k t device = none ∨ ∃ f, cl.outer k t device = some (.act f))
    (h : .outside back ∈ σ.points ∨
      .outside device ∈ σ.points ∧ ∃ k, ok k σ.memory.data device ∧ ∀ t, cl.outer k t device ≠ none) :
    ∃ o σ', Permits ok σ o ∧ σ.Moves cl.code o σ' := by
  have hpermits : ∀ {t : ℕ} {k : K} {l : L}, σ.points[t]? = some (.outside l) → ok k σ.memory.data l →
      Permits ok σ (t, k) := by
    intro t k l hp hk l' hl
    rw [hp] at hl
    cases hl
    exact hk
  obtain hc | ⟨hc, k, hk, hsome⟩ := h
  · obtain ⟨t, hp⟩ := List.mem_iff_getElem?.mp hc
    obtain ⟨σ', hm⟩ := hs.ready_moves hfault hp (k := k) (fun k s next h => by
      obtain ⟨s', l, hv⟩ := hback k t
      simp [code, hv] at h) (by
      obtain ⟨s', l, hv⟩ := hback k t
      simp [code, hv])
    exact ⟨(t, k), σ', hpermits hp hok, hm⟩
  · obtain ⟨t, hp⟩ := List.mem_iff_getElem?.mp hc
    obtain ⟨σ', hm⟩ := hs.ready_moves hfault hp (k := k) (fun k s next h => by
      obtain hnone | ⟨f, hf⟩ := hdevice k t
      · simp [code, hnone] at h
      · simp [code, hf, onData] at h) (by simpa [code] using hsome t)
    exact ⟨(t, k), σ', hpermits hp hk, hm⟩

/-- Either every thread rests, or one can move: a thread that sleeps for the lock waits for its holder, and one
that sleeps for another semaphore waits for a move that the client promises. -/
lemma Sane.live (hs : Sane cl v₀ σ) (hplain : ∀ c ∈ σ.points, c.plain = true) (hfault : ∀ o e, ¬Fails cl o σ e)
    {rests : MonitorPoint L → Prop}
    (hrests : ∀ c, rests c → c.holds = false ∧ ∀ k t s next, cl.code k t c ≠ some (.p s next))
    (hcode : ∀ t c, σ.points[t]? = some c → rests c ∨
      ∃ k, (∀ l, c = .outside l → ok k σ.memory.data l) ∧ cl.code k t c ≠ none)
    (hother : ∀ t c s next k, σ.points[t]? = some c → cl.code k t c = some (.p (.other s) next) →
      σ.value (.other s) = 0 → ∃ o σ', Permits ok σ o ∧ σ.Moves cl.code o σ') :
    (∀ c ∈ σ.points, rests c) ∨ ∃ o σ', Permits ok σ o ∧ σ.Moves cl.code o σ' := by
  by_contra hno
  rw [not_or] at hno
  obtain ⟨hbusy, hstuck⟩ := hno
  -- nobody who is awake has anything to do
  have hasleep : ∀ {t : ℕ} {c : MonitorPoint L}, σ.points[t]? = some c →
      ¬rests c → ∃ s next, σ.threads[t]? = some (ThreadState.asleep c s next) := by
    intro t c hp hr
    obtain ⟨k, hk, hc⟩ := (hcode t c hp).resolve_left hr
    obtain ⟨st, hst, rfl⟩ : ∃ st, σ.threads[t]? = some st ∧ st.point = c := by
      rw [points, List.getElem?_map, Option.map_eq_some_iff] at hp
      exact hp
    cases hawake : st.awake with
    | true =>
      obtain ⟨σ', hm⟩ := hs.awake_moves hfault hst hawake hc
      refine absurd ⟨(t, k), σ', fun l hl => hk l ?_, hm⟩ hstuck
      rw [hp] at hl
      exact Option.some.inj hl
    | false =>
      cases st with
      | asleep c s next => exact ⟨s, next, hst⟩
      | ready | woken => cases hawake
  -- so a semaphore on which a thread sleeps is worth nothing
  have hzero : ∀ {t : ℕ} {c next : MonitorPoint L} {s : Sem S}, σ.threads[t]? = some (.asleep c s next) →
      σ.value s = 0 := by
    intro t c next s ht
    have hq : (σ.semaphores s).queue ≠ [] := List.ne_nil_of_mem ((hs.steady.queued s t).mpr ⟨c, next, ht⟩)
    have hpending := hs.steady.pending s hq
    have hnone : σ.threads.countP (ThreadState.wokenOn s) = 0 := by
      rw [List.countP_eq_zero]
      intro st hst hw
      obtain ⟨u, hu⟩ := List.mem_iff_getElem?.mp hst
      cases st with
      | ready | asleep => cases hw
      | woken c' s' next' =>
        obtain ⟨k, hk⟩ := hs.steady.sited u c' s' next' (.inr hu)
        have hr : ¬rests c' := fun hr => (hrests c' hr).2 k u s' next' hk
        obtain ⟨s'', next'', ha⟩ := hasleep (points_getElem? hu) hr
        rw [hu] at ha
        cases ha
    have hnonneg := hs.nonneg s
    rw [hnone] at hpending
    exact le_antisymm hpending hnonneg
  -- and no thread sleeps on a semaphore of the client's own
  have honly : ∀ {t : ℕ} {c next : MonitorPoint L} {s : Sem S}, σ.threads[t]? = some (.asleep c s next) →
      s = .lock := by
    intro t c next s ht
    have hp : σ.points[t]? = some c := points_getElem? ht
    obtain ⟨k, hk⟩ := hs.steady.sited t c s next (.inl ht)
    have hcp := hplain c (List.mem_of_getElem? hp)
    cases takes_of_code hk with
    | acquire => rfl
    | waitAcquire => rfl
    | waitP => cases hcp
    | outer hc => exact absurd (hother _ _ _ _ k hp hk (hzero ht)) hstuck
    | inner hc => exact absurd (hother _ _ _ _ k hp hk (hzero ht)) hstuck
  push Not at hbusy
  obtain ⟨c, hc, hr⟩ := hbusy
  obtain ⟨t, hp⟩ := List.mem_iff_getElem?.mp hc
  obtain ⟨s, next, ht⟩ := hasleep hp hr
  obtain rfl := honly ht
  have hvalue := hzero ht
  have htoken := hs.locked.token
  have hpos : 0 < σ.points.countP MonitorPoint.holds := by omega
  obtain ⟨c', hc', hh⟩ := List.countP_pos_iff.mp hpos
  obtain ⟨t', hp'⟩ := List.mem_iff_getElem?.mp hc'
  have hr' : ¬rests c' := fun hr => by rw [(hrests c' hr).1] at hh; cases hh
  obtain ⟨s', next', ht'⟩ := hasleep hp' hr'
  obtain rfl := honly ht'
  obtain ⟨k, hk⟩ := hs.steady.sited t' c' .lock next' (.inl ht')
  have hout := ((guards cl).take hk).1
  rw [hh] at hout
  cases hout

lemma Consumes.within (h : Consumes cl ok outer inner owed) (hcl : LockOnly cl) {I done : World S D L → Prop}
    (hI : ∀ o σ σ', I σ → Permits ok σ o → σ.Moves cl.code o σ' → I σ') (hsane : ∀ σ, I σ → Sane cl v₀ σ)
    (hplain : ∀ σ, I σ → ∀ c ∈ σ.points, c.plain = true)
    (hlive : ∀ σ, I σ → done σ ∨ ∃ o σ', Permits ok σ o ∧ σ.Moves cl.code o σ') {n : ℕ} (hσ : I σ)
    (hn : workLeft (MonitorPoint.rank outer inner) (fun m => owed m.data) σ ≤ n) :
    Within (fun o σ σ' => σ.Moves cl.code o σ') (Permits ok) done n σ :=
  Within.of_rank hI (fun _ σ _ hσ ho hm => h.workLeft_lt hcl (hsane σ hσ) (hplain σ hσ) ho hm) hlive hσ hn

end LockOnly

end Client

end NachosFileSys
