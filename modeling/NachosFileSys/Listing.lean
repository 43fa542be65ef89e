import NachosFileSys.CutEntries
import NachosFileSys.Lib.Trees

namespace NachosFileSys

open Lib.Programs Lib.Bytes Lib.Runs Lib.Trees

def DirectoryEntry.Entered (e : DirectoryEntry) : Bool :=
  e.inUse ≠ 0 && e.isDir ≠ 0 && chars e.name.toList ≠ [0x2e] && chars e.name.toList ≠ [0x2e, 0x2e]

lemma stop_bind {α β : Type} (f : Fault) (g : α → Nachos β) : (stop f : Nachos α) >>= g = stop f := by
  rw [stop, stop, Prog.request_bind]
  congr 1
  funext e
  cases e

namespace Directory

def visitLoop (enter : ℤ → Nachos (List ℤ)) : List DirectoryEntry → Nachos (List ℤ)
  | [] => pure []
  | e :: es => do
    let first ← if e.Entered then enter e.sector.toInt else pure []
    let rest ← visitLoop enter es
    pure (first ++ rest)

/-- `List` on the directory at sector `s`, with the header sectors of the directories that it lists. -/
def visit : ℕ → ℤ → Directory → Nachos (List ℤ)
  | 0, s, d => do
    let below ← visitLoop (fun _ => stop .depth) d.table
    pure (s :: below)
  | depth + 1, s, d => do
    let below ← visitLoop (fun sector => do
      let dir ← new NumDirEntries
      let dirFile ← OpenFile.new sector
      let dir ← dir.fetchFrom dirFile
      let visited ← visit depth sector dir
      dirFile.close
      pure visited) d.table
    pure (s :: below)

lemma listLoop_eq_visitLoop {enter : ℤ → Nachos Unit} {enter' : ℤ → Nachos (List ℤ)}
    (h : ∀ x, enter x = enter' x >>= fun _ => pure ()) (es : List DirectoryEntry) :
    listLoop enter es = visitLoop enter' es >>= fun _ => pure () := by
  induction es with
  | nil => rfl
  | cons e es ih =>
    rw [listLoop, visitLoop, ih, onlyIf]
    by_cases hc : e.Entered = true
    · rw [if_pos hc, if_pos (by simpa [DirectoryEntry.Entered] using hc), h]
      simp only [bind_assoc, pure_bind]
    · rw [if_neg hc, if_neg (by simpa [DirectoryEntry.Entered] using hc)]
      simp only [bind_assoc, pure_bind]

lemma list_eq_visit (depth : ℕ) :
    ∀ (s : ℤ) (d : Directory), list depth d = visit depth s d >>= fun _ => pure () := by
  induction depth with
  | zero =>
    intro s d
    rw [list, visit, bind_assoc]
    simp only [pure_bind]
    exact listLoop_eq_visitLoop (fun _ => (stop_bind _ _).symm) d.table
  | succ depth ih =>
    intro s d
    rw [list, visit, bind_assoc]
    simp only [pure_bind]
    refine listLoop_eq_visitLoop (fun x => ?_) d.table
    simp only [ih x, bind_assoc, pure_bind, bind_pure_unit]

end Directory

def FileSystem.visit (depth : ℕ) (dirSector : ℤ) : Nachos (List ℤ) := do
  let directory ← Directory.new NumDirEntries
  let dirFile ← OpenFile.new dirSector
  let directory ← directory.fetchFrom dirFile
  let visited ← directory.visit depth dirSector
  dirFile.close
  pure visited

lemma FileSystem.list_eq_visit (depth : ℕ) (s : ℤ) : list depth s = visit depth s >>= fun _ => pure () := by
  rw [list, visit]
  simp only [Directory.list_eq_visit depth s, bind_assoc, pure_bind, bind_pure_unit]

def subdirectories (d : Disk) (s : ℤ) : List ℤ :=
  ((tableAt d s).filter DirectoryEntry.Entered).map (·.sector.toInt)

lemma key_eq_dotted {name : List Byte} {dots : List Byte} (hlen : dots.length < FileNameMaxLen) :
    key name = dots ↔ chars name = dots := by
  rw [key]
  constructor
  · intro h
    have hlt := congrArg List.length h
    rw [List.length_take] at hlt
    rw [← h, List.take_of_length_le (by omega)]
  · rintro rfl
    exact List.take_of_length_le hlen.le

lemma DirectoryEntry.entered_iff {e : DirectoryEntry} :
    e.Entered = true ↔ e.inUse ≠ 0 ∧ e.isDir ≠ 0 ∧ ¬e.Dotted := by
  rw [Entered, Dotted, key_eq_dotted (by decide), key_eq_dotted (by decide)]
  simp [and_assoc]

lemma DirectoryEntry.owning_of_entered {e : DirectoryEntry} (h : e.Entered = true) : e.Owning := by
  rw [entered_iff] at h
  exact ⟨h.1, Or.inr h.2.2⟩

namespace Sound

variable {fs : FileSystem} {d : Disk} {kind : ℤ → Option Kind} {s x y : ℤ} {n : ℕ}

lemma mem_subdirectories : x ∈ subdirectories d s ↔ ∃ e ∈ tableAt d s, e.Entered = true ∧ e.sector.toInt = x := by
  rw [subdirectories]
  simp only [List.mem_map, List.mem_filter, and_assoc]

lemma kind_of_below (hs : Sound fs d kind) (hk : kind s = some .dir) (h : Below (subdirectories d) s n x) :
    kind x = some .dir := by
  induction h with
  | self => exact hk
  | child _ hz ih =>
    obtain ⟨e, he, hentered, rfl⟩ := mem_subdirectories.mp hz
    obtain ⟨hu, hdir, -⟩ := DirectoryEntry.entered_iff.mp hentered
    rw [hs.names.points ih he hu, DirectoryEntry.kind, if_neg hdir]

lemma rooted (hs : Sound fs d kind) : Rooted (subdirectories d) DirectorySector := by
  refine ⟨fun {n x} hx hroot => ?_, fun {m n x y z} hx hy hzx hzy => ?_, fun {n x} hx => ?_⟩
  · obtain ⟨e, he, hentered, hsec⟩ := mem_subdirectories.mp hroot
    exact hs.names.notRoot (hs.kind_of_below hs.names.root hx) he (DirectoryEntry.owning_of_entered hentered) hsec
  · obtain ⟨e, he, hentered, hsec⟩ := mem_subdirectories.mp hzx
    obtain ⟨e', he', hentered', hsec'⟩ := mem_subdirectories.mp hzy
    obtain ⟨i, hi⟩ := List.mem_iff_getElem?.mp he
    obtain ⟨i', hi'⟩ := List.mem_iff_getElem?.mp he'
    have hown := DirectoryEntry.owning_of_entered hentered
    have hown' := DirectoryEntry.owning_of_entered hentered'
    exact (hs.names.unique (hs.kind_of_below hs.names.root hx)
      (hs.kind_of_below hs.names.root hy) hi hi' hown hown'
      (hsec.trans hsec'.symm)).1
  · have hk := hs.kind_of_below hs.names.root hx
    rw [subdirectories, List.Nodup, List.pairwise_map, List.pairwise_filter, List.pairwise_iff_getElem]
    intro i j hi hj hij hei hej heq
    have := (hs.names.unique hk hk (List.getElem?_eq_getElem hi) (List.getElem?_eq_getElem hj)
      (DirectoryEntry.owning_of_entered hei) (DirectoryEntry.owning_of_entered hej) heq).2
    omega

lemma exec_visitLoop {enter : ℤ → Nachos (List ℤ)} {f : ℤ → Option (List ℤ)} (es : List DirectoryEntry) :
    ∀ {k : Kernel} {ls : List (List ℤ)}, k.disk = d →
      (∀ e ∈ es, e.Entered = true → ∀ {k : Kernel} {l : List ℤ}, k.disk = d → f e.sector.toInt = some l →
        ∃ k', exec (enter e.sector.toInt) k = .ok (l, k') ∧ k'.disk = d) →
      ((es.filter DirectoryEntry.Entered).map (·.sector.toInt)).mapM f = some ls →
      ∃ k', exec (Directory.visitLoop enter es) k = .ok (ls.flatten, k') ∧ k'.disk = d := by
  induction es with
  | nil =>
    intro k ls hd _ hls
    cases hls
    exact ⟨k, rfl, hd⟩
  | cons e es ih =>
    intro k ls hd henter hls
    have hrest := fun e' he' => henter e' (List.mem_cons_of_mem e he')
    rw [Directory.visitLoop]
    by_cases hc : e.Entered = true
    · rw [List.filter_cons_of_pos hc, List.map_cons, List.mapM_cons] at hls
      obtain ⟨l, hl, hls⟩ := Option.bind_eq_some_iff.mp hls
      obtain ⟨ls', hls', hls⟩ := Option.bind_eq_some_iff.mp hls
      cases hls
      obtain ⟨k₁, h₁, hd₁⟩ := henter e List.mem_cons_self hc hd hl
      obtain ⟨k₂, h₂, hd₂⟩ := ih hd₁ hrest hls'
      exact ⟨k₂, by rw [if_pos hc, exec_bind_of_ok h₁, exec_bind_of_ok h₂]; rfl, hd₂⟩
    · rw [List.filter_cons_of_neg hc] at hls
      obtain ⟨k₂, h₂, hd₂⟩ := ih hd hrest hls
      exact ⟨k₂, by rw [if_neg hc, pure_bind, exec_bind_of_ok h₂]; rfl, hd₂⟩

lemma filter_of_loaded {table : List DirectoryEntry} {dir : Directory} (hl : Loaded table dir) :
    dir.table.filter DirectoryEntry.Entered = table.filter DirectoryEntry.Entered := by
  obtain ⟨junk, ht, hj⟩ := hl.eq
  have hnone : junk.filter DirectoryEntry.Entered = [] := List.filter_eq_nil_iff.mpr fun e he hc =>
    (DirectoryEntry.entered_iff.mp hc).1 (hj e he)
  rw [ht, List.filter_append, hnone, List.append_nil]

lemma exec_visitAt (hs : Sound fs d kind) (hk : kind s = some .dir)
    {inner : Directory → Nachos (List ℤ)} {l : List ℤ}
    (hinner : ∀ {dir : Directory} {k : Kernel}, Loaded (tableAt d s) dir → k.disk = d →
      ∃ k', exec (inner dir) k = .ok (l, k') ∧ k'.disk = d) {k : Kernel} (hd : k.disk = d) :
    ∃ k', exec (do
      let dir ← Directory.new NumDirEntries
      let dirFile ← OpenFile.new s
      let dir ← dir.fetchFrom dirFile
      let visited ← inner dir
      dirFile.close
      pure visited) k = .ok (l, k') ∧ k'.disk = d := by
  obtain ⟨dir, k₁, h₁, hd₁, -, hlen, hnew⟩ := Directory.exec_new k
  obtain ⟨k₂, h₂, hd₂, -⟩ := hs.exec_openDirectory hk (hd₁.trans hd)
  obtain ⟨dir', h₃, hl⟩ := hs.exec_loadDirectory hk hd₂ hlen hnew 0
  obtain ⟨k₄, h₄, hd₄⟩ := hinner hl hd₂
  obtain ⟨k₅, h₅, hd₅, -⟩ := OpenFile.exec_close ⟨hdrAt d s, 0, s⟩ (hs.dir_ne_map hk) k₄
  refine ⟨k₅, ?_, hd₅.trans hd₄⟩
  rw [exec_bind_of_ok h₁, exec_bind_of_ok h₂, exec_bind_of_ok h₃,
      exec_bind_of_ok h₄, exec_bind_of_ok h₅, exec_pure]

lemma exec_visit (hs : Sound fs d kind) (depth : ℕ) : ∀ {s : ℤ} {dir : Directory} {k : Kernel} {l : List ℤ},
    kind s = some .dir → Loaded (tableAt d s) dir → k.disk = d →
    preorder (subdirectories d) depth s = some l →
    ∃ k', exec (dir.visit depth s) k = .ok (l, k') ∧ k'.disk = d := by
  induction depth with
  | zero =>
    intro s dir k l hk hl hd hp
    rw [preorder] at hp
    split at hp
    · rename_i hempty
      cases hp
      have hnil : ((dir.table.filter DirectoryEntry.Entered).map (·.sector.toInt)) = [] := by
        rw [filter_of_loaded hl]
        exact List.isEmpty_iff.mp hempty
      have hnone : ∀ e ∈ dir.table, e.Entered ≠ true := fun e he hc => by
        rw [List.map_eq_nil_iff, List.filter_eq_nil_iff] at hnil
        exact hnil e he hc
      obtain ⟨k', he, hd'⟩ : ∃ k', exec (Directory.visitLoop (fun _ => stop .depth) dir.table) k =
          .ok (([] : List (List ℤ)).flatten, k') ∧ k'.disk = d :=
        exec_visitLoop (f := fun _ => none) dir.table hd (fun e he hc => absurd hc (hnone e he))
            (by rw [hnil]; rfl)
      exact ⟨k', by rw [Directory.visit, exec_bind_of_ok he]; rfl, hd'⟩
    · cases hp
  | succ depth ih =>
    intro s dir k l hk hl hd hp
    rw [preorder] at hp
    obtain ⟨ls, hls, rfl⟩ := Option.map_eq_some_iff.mp hp
    rw [subdirectories, ← filter_of_loaded hl] at hls
    have hentries : ∀ e ∈ dir.table, e.Entered = true → kind e.sector.toInt = some .dir := fun e he hc =>
      hs.entries_of_loaded hk hl e he (DirectoryEntry.entered_iff.mp hc).1 (DirectoryEntry.entered_iff.mp hc).2.1
    obtain ⟨k', he, hd'⟩ : ∃ k', exec (Directory.visitLoop (fun sector => do
        let dir ← Directory.new NumDirEntries
        let dirFile ← OpenFile.new sector
        let dir ← dir.fetchFrom dirFile
        let visited ← dir.visit depth sector
        dirFile.close
        pure visited) dir.table) k = .ok (ls.flatten, k') ∧ k'.disk = d :=
      exec_visitLoop dir.table hd (fun e he hc k l hd hf =>
        hs.exec_visitAt (hentries e he hc) (fun hl hd => ih (hentries e he hc) hl hd hf) hd) hls
    exact ⟨k', by rw [Directory.visit, exec_bind_of_ok he]; rfl, hd'⟩

end Sound

inductive ChangesTo (good : CString → Prop) (d : Disk) : ℤ → Prop
  | root : ChangesTo good d DirectorySector
  | step {s s' : ℤ} {path : CString} {k k' : Kernel} (h : ChangesTo good d s) (hgood : good path) (hd : k.disk = d)
      (he : exec (FileSystem.changeDir path s) k = .ok (s', k')) (hpos : 0 ≤ s') : ChangesTo good d s'

def ProperName (name : CString) : Prop := 0x2f#8 ∉ chars name ∧ key name ≠ dot ∧ key name ≠ dotdot

lemma Sound.below_of_changesTo {fs : FileSystem} {d : Disk} {kind : ℤ → Option Kind} {s : ℤ} (hs : Sound fs d kind)
    (h : ChangesTo ProperName d s) : ∃ n, Below (subdirectories d) DirectorySector n s := by
  induction h with
  | root => exact ⟨0, .self⟩
  | @step s s' path k k' h hgood hd he hpos ih =>
    obtain ⟨n, hn⟩ := ih
    obtain ⟨hslash, hdot, hdotdot⟩ := hgood
    have hk := hs.kind_of_below hs.names.root hn
    obtain ⟨k'', he', -⟩ := hs.exec_changeDir hk hd path
    rw [he'] at he
    have hcomp : components path = [chars path] := List.splitOn_eq_singleton hslash
    have hat : directoryAt d path s = s' := congrArg Prod.fst (Except.ok.inj he)
    rw [directoryAt, hcomp, resolve] at hat
    dsimp only at hat
    cases hlook : lookupIn d s (chars path) with
    | none =>
      rw [hlook] at hat
      dsimp only at hat
      omega
    | some e =>
      rw [hlook] at hat
      dsimp only at hat
      obtain ⟨hmem, hu, hkey⟩ := Sound.lookupIn_spec hlook
      have hchars : key (chars path) = key path := by rw [key, chars_chars, key]
      by_cases hdir : e.isDir ≠ 0
      · rw [if_pos hdir] at hat
        have hentered : e.Entered = true := by
          refine DirectoryEntry.entered_iff.mpr ⟨hu, hdir, ?_⟩
          rw [DirectoryEntry.Dotted, hkey, hchars]
          exact fun hor => hor.elim hdot hdotdot
        exact ⟨n + 1, hn.child (mem_subdirectories.mpr ⟨e, hmem, hentered, hat⟩)⟩
      · rw [if_neg hdir] at hat
        omega

/-- `List` on the root returns, and lists every directory that `ChangeDir` reaches through names
other than `.` and `..` once. -/
theorem listing_visits_once (sys : System) (h : System.Reachable System.Regular sys) (k : Kernel)
    (hd : k.disk = sys.kernel.disk) : ∀ depth ≥ 1024, ∃ (visited : List ℤ) (k' k'' : Kernel),
      exec (FileSystem.list depth DirectorySector) k = .ok ((), k') ∧
      exec (FileSystem.visit depth DirectorySector) k = .ok (visited, k'') ∧ visited.Nodup ∧
      ∀ s, ChangesTo ProperName sys.kernel.disk s → s ∈ visited := by
  intro depth hdepth
  obtain ⟨kind, hst⟩ := h.stable
  have hs := hst.sound
  have hin : ∀ n x, Below (subdirectories sys.kernel.disk) DirectorySector n x → x ∈ Set.Ico (0 : ℤ) NumSectors :=
    fun n x hx => hs.inDisk (hs.kind_of_below hs.names.root hx)
  have hcard : (Set.Ico (0 : ℤ) NumSectors).ncard ≤ 0 + depth + 1 := by
    rw [← Finset.coe_Ico, Set.ncard_coe_finset, Int.card_Ico]
    simp only [NumSectors]
    omega
  obtain ⟨visited, hp, hnd, hmem⟩ := hs.rooted.preorder_eq (Set.finite_Ico 0 NumSectors) hin .self hcard
  obtain ⟨k'', hv, -⟩ := hs.exec_visitAt hs.names.root (fun hl hd => hs.exec_visit depth hs.names.root hl hd hp) hd
  refine ⟨visited, k'', k'', ?_, hv, hnd, fun s hreach => (hmem s).mpr (hs.below_of_changesTo hreach)⟩
  have hv' : exec (FileSystem.visit depth DirectorySector) k = .ok (visited, k'') := hv
  rw [FileSystem.list_eq_visit, exec_bind_of_ok hv', exec_pure]

theorem listing_visits_once_made : ∃ (sys : System) (visited : List ℤ) (k' : Kernel),
    System.Reachable System.Regular sys ∧
    exec (FileSystem.visit 1024 DirectorySector) sys.kernel = .ok (visited, k') ∧ visited.Nodup := by
  obtain ⟨sys₀, sys, kind, s, hb, hstep, -⟩ := System.boot_makeDir
  have hreach : System.Reachable System.Regular sys :=
    ⟨Kernel.blank, sys₀, hb, .step (.makeDir 0 bin 0) .refl ⟨by decide, Or.inl le_rfl⟩ hstep⟩
  obtain ⟨visited, k', k'', -, hv, hnd, -⟩ := listing_visits_once sys hreach sys.kernel rfl 1024 le_rfl
  exact ⟨sys, visited, k'', hreach, hv, hnd⟩

lemma Directory.visitLoop_error {enter : ℤ → Nachos (List ℤ)} {x : Fault} {k : Kernel} (es : List DirectoryEntry)
    (henter : ∀ e ∈ es, e.Entered = true → exec (enter e.sector.toInt) k = .error x)
    (hex : ∃ e ∈ es, e.Entered = true) : exec (visitLoop enter es) k = .error x := by
  induction es with
  | nil => simp at hex
  | cons e es ih =>
    rw [visitLoop]
    by_cases hc : e.Entered = true
    · rw [if_pos hc, exec_bind, henter e List.mem_cons_self hc]
    · obtain ⟨e', he', hc'⟩ := hex
      have hmem : e' ∈ es := (List.mem_cons.mp he').resolve_left fun heq => hc (heq ▸ hc')
      have hrest := ih (fun e he => henter e (List.mem_cons_of_mem _ he)) ⟨e', hmem, hc'⟩
      rw [if_neg hc, pure_bind, exec_bind, hrest]

/-- A directory that ends before the name of its entry for `.` is entered from itself, again and again. -/
lemma CutDirectory.visit_error {d : Disk} {i : ℤ} (h : CutDirectory d i) (depth : ℕ) : ∀ {k : Kernel}
    {e : DirectoryEntry} {rest : List DirectoryEntry}, k.disk = d → k.Filled 0 → e.inUse = 1 → e.isDir = 1 →
    e.sector.toInt = i → e.name = Vector.replicate 10 0 → (∀ e' ∈ rest, e'.inUse = 0) →
    exec (Directory.visit depth i ⟨e :: rest⟩) k = .error .depth := by
  induction depth with
  | zero =>
    intro k e rest hd hk hu hdir hsec hn hrest
    have hentered : e.Entered = true := by
      rw [DirectoryEntry.Entered, hu, hdir, hn]
      decide
    rw [Directory.visit, exec_bind, Directory.visitLoop_error (e :: rest) (fun _ _ _ => rfl)
      ⟨e, List.mem_cons_self, hentered⟩]
  | succ depth ih =>
    intro k e rest hd hk hu hdir hsec hn hrest
    subst hd
    have hentered : e.Entered = true := by
      rw [DirectoryEntry.Entered, hu, hdir, hn]
      decide
    obtain ⟨dir, k₁, h₁, hd₁, hf₁, hblank⟩ := Directory.exec_new_filled hk
    obtain ⟨k₂, h₂, hd₂, -⟩ := OpenFile.exec_new h.file.inDisk k₁
    rw [hd₁] at h₂ hd₂
    obtain ⟨e', rest', h₃, hu', hdir', hsec', hn', hrest'⟩ := h.exec_fetchFrom hd₂ hblank
    rw [Directory.visit, exec_bind, Directory.visitLoop_error (e :: rest) (fun e₁ he₁ hc => ?_)
      ⟨e, List.mem_cons_self, hentered⟩]
    obtain rfl : e₁ = e := (List.mem_cons.mp he₁).resolve_right fun hmem =>
      (DirectoryEntry.entered_iff.mp hc).1 (hrest e₁ hmem)
    rw [hsec, exec_bind_of_ok h₁, exec_bind_of_ok h₂, exec_bind_of_ok h₃, exec_bind,
      ih hd₂ (hf₁.of_exec _ h₂) hu' hdir' hsec' hn' hrest']

def Op.Builds : Op → Prop
  | .create _ _ initialSize => 0 ≤ initialSize
  | .makeDir _ _ initialSize => 0 ≤ initialSize
  | .remove _ _ => True
  | _ => False

/-- After `MakeDir` with eight bytes `List` does not return, where the heap holds zeros. -/
theorem listing_recurs : ¬∀ sys : System, System.Reachable (fun _ op => op.Builds) sys → ∀ k : Kernel,
    k.disk = sys.kernel.disk → k.Filled 0 →
    ∃ (depth : ℕ) (k' : Kernel), exec (FileSystem.list depth DirectorySector) k = .ok ((), k') := by
  intro hall
  obtain ⟨sys₀, sys, i, e, hb, hstep, hwd, hroot, hlook, rfl, hdir, honly, hcut⟩ := System.boot_cut
  have hreach : System.Reachable (fun _ op => op.Builds) sys :=
    ⟨Kernel.blank, sys₀, hb, .step (.makeDir 0 bin 8) .refl (show (0 : ℤ) ≤ 8 by decide) hstep⟩
  let k : Kernel := ⟨sys.kernel.disk, sys.kernel.maps, fun _ => 0⟩
  have hk : k.Filled 0 := fun _ => rfl
  obtain ⟨depth, k', hlist⟩ := hall sys hreach k rfl hk
  obtain ⟨hmem, hu, hkey⟩ := Sound.lookupIn_spec hlook
  have hentered : e.Entered = true := by
    refine DirectoryEntry.entered_iff.mpr ⟨hu, by rw [hdir]; decide, ?_⟩
    rw [DirectoryEntry.Dotted, hkey]
    decide
  -- the root is read, and its one entry is entered
  obtain ⟨dir, k₁, h₁, hd₁, -, hlen, hnew⟩ := Directory.exec_new k
  have hf₁ := hk.of_exec _ h₁
  obtain ⟨k₂, h₂, hd₂, -⟩ := OpenFile.exec_new hroot.file.inDisk k₁
  have hf₂ := hf₁.of_exec _ h₂
  rw [hd₁] at h₂ hd₂
  have hcur : (OpenFile.mk (hdrAt k.disk DirectorySector) 0 DirectorySector).Current k₂.disk := by
    rw [hd₂]
    rfl
  obtain ⟨dir', h₃, hl⟩ := Directory.exec_fetch (by rw [hd₂]; exact hroot) hcur rfl hlen hnew
  rw [hd₂] at hl
  have hentries : ∀ e' ∈ dir'.table, e'.Entered = true → e' = e := by
    intro e' he' hc
    have hmem' : e' ∈ (tableAt k.disk DirectorySector).filter DirectoryEntry.Entered := by
      rw [← Sound.filter_of_loaded hl]
      exact List.mem_filter.mpr ⟨he', hc⟩
    exact honly e' (List.mem_filter.mp hmem').1 (DirectoryEntry.entered_iff.mp hc).1
  have hin : e ∈ dir'.table := by
    obtain ⟨junk, ht, -⟩ := hl.eq
    rw [ht]
    exact List.mem_append_left _ hmem
  have herror : exec (dir'.visit depth DirectorySector) k₂ = .error .depth := by
    cases depth with
    | zero =>
      rw [Directory.visit, exec_bind, Directory.visitLoop_error dir'.table (fun _ _ _ => rfl) ⟨e, hin, hentered⟩]
    | succ depth =>
      obtain ⟨new, k₃, h₄, hd₃, hf₃, hblank⟩ := Directory.exec_new_filled hf₂
      obtain ⟨k₄, h₅, hd₄, -⟩ := OpenFile.exec_new hcut.file.inDisk k₃
      rw [hd₃, hd₂] at h₅ hd₄
      obtain ⟨e₁, rest, h₆, hu₁, hdir₁, hsec₁, hn₁, hrest₁⟩ := hcut.exec_fetchFrom hd₄ hblank
      rw [Directory.visit, exec_bind,
          Directory.visitLoop_error dir'.table (fun e' he' hc => ?_) ⟨e, hin, hentered⟩]
      rw [hentries e' he' hc, exec_bind_of_ok h₄, exec_bind_of_ok h₅, exec_bind_of_ok h₆, exec_bind,
        hcut.visit_error depth hd₄ (hf₃.of_exec _ h₅) hu₁ hdir₁ hsec₁ hn₁ hrest₁]
  rw [FileSystem.list_eq_visit, FileSystem.visit, exec_bind, exec_bind_of_ok h₁, exec_bind_of_ok h₂,
    exec_bind_of_ok h₃, exec_bind, herror] at hlist
  cases hlist

end NachosFileSys
