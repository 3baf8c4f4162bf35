import Kernelet.Proofs.Kernel.Balance
import Kernelet.Proofs.Memory.Places

/-!
Exact accounts of physical memory at the level of the kernel. A frame that the
kernel does not keep for itself is referred to by as many pages of processes as
its count says; so nothing leaks however a process comes to its end, and nothing
is given back that is still mapped.
-/

namespace Kernelet.Kernel

/-- Page `p` of process `pid` is mapped by `entry`. -/
def Maps (k : Kernel) (pid : Pid) (p : Nat) (entry : PageEntry) : Prop :=
  ∃ task space, task ∈ k.sched.tasks ∧ task.pid = pid ∧ task.space = some space ∧
    space.table.lookup p = some entry

/-- The pages of processes that frame `f` is behind. -/
def placesOf (k : Kernel) (f : FrameId) : Set (Pid × Nat) :=
  {x | ∃ entry, k.Maps x.1 x.2 entry ∧ entry.frame = f}

/-- The pool and the processes agree, with `reserved` frames kept by the
kernel. -/
structure Accounted (reserved : Nat) (k : Kernel) : Prop where
  finite_placesOf : ∀ f, (k.placesOf f).Finite
  refCount_eq : ∀ f, reserved ≤ f → k.pool.refCount f = (k.placesOf f).ncard
  refCount_reserved : ∀ f, f < reserved → k.pool.refCount f = 1 ∧ k.placesOf f = ∅
  usedFrames_eq : k.pool.stats.usedFrames = reserved + {f | (k.placesOf f).Nonempty}.ncard
  space_of_zombie : ∀ task ∈ k.sched.tasks, task.isZombie = true → task.space = none

/-- The tables of processes, each under the number of its process. -/
def keyedTables (tasks : List Task) : List (Pid × PageTable) :=
  tasks.flatMap fun task => task.tables.map fun table => (task.pid, table)

section Keyed

variable {k : Kernel} {tasks : List Task}

theorem mem_keyedTables {pid : Pid} {table : PageTable} :
    (pid, table) ∈ keyedTables tasks ↔
      ∃ task space, task ∈ tasks ∧ task.pid = pid ∧ task.space = some space ∧
        space.table = table := by
  unfold keyedTables Task.tables
  simp only [List.mem_flatMap, List.mem_map, Option.mem_toList, Option.map_eq_some_iff,
    Prod.mk.injEq]
  constructor
  · rintro ⟨task, hmem, found, ⟨space, hspace, rfl⟩, rfl, rfl⟩
    exact ⟨task, space, hmem, rfl, hspace, rfl⟩
  · rintro ⟨task, space, hmem, rfl, hspace, rfl⟩
    exact ⟨task, hmem, space.table, ⟨space, hspace, rfl⟩, rfl, rfl⟩

theorem map_snd_keyedTables (tasks : List Task) :
    (keyedTables tasks).map Prod.snd = tablesOf tasks := by
  induction tasks with
  | nil => rfl
  | cons task rest ih =>
      unfold keyedTables at ih ⊢
      rw [List.flatMap_cons, List.map_append, ih, tablesOf_cons, List.map_map]
      congr 1
      exact List.map_id _

theorem map_fst_keyedTables_nodup (h : (tasks.map Task.pid).Nodup) :
    ((keyedTables tasks).map Prod.fst).Nodup := by
  induction tasks with
  | nil => exact List.nodup_nil
  | cons task rest ih =>
      obtain ⟨hnew, hrest⟩ := List.nodup_cons.mp h
      have htail := ih hrest
      have hout : task.pid ∉ (keyedTables rest).map Prod.fst := by
        intro hmem
        obtain ⟨⟨pid, table⟩, hkeyed, rfl⟩ := List.mem_map.mp hmem
        obtain ⟨other, space, hother, hpid, -⟩ := mem_keyedTables.mp hkeyed
        exact hnew (List.mem_map.mpr ⟨other, hother, hpid⟩)
      unfold keyedTables Task.tables at htail hout ⊢
      rw [List.flatMap_cons]
      cases task.space with
      | none => exact htail
      | some space => exact List.nodup_cons.mpr ⟨hout, htail⟩

theorem placesOf_eq (k : Kernel) (f : FrameId) :
    k.placesOf f = Kernelet.placesOf (keyedTables k.sched.tasks) f := by
  ext ⟨pid, p⟩
  constructor
  · rintro ⟨entry, ⟨task, space, hmem, hpid, hspace, hlookup⟩, hframe⟩
    exact ⟨space.table, mem_keyedTables.mpr ⟨task, space, hmem, hpid, hspace, rfl⟩, entry,
      hlookup, hframe⟩
  · rintro ⟨table, hkeyed, entry, hlookup, hframe⟩
    obtain ⟨task, space, hmem, hpid, hspace, rfl⟩ := mem_keyedTables.mp hkeyed
    exact ⟨entry, ⟨task, space, hmem, hpid, hspace, hlookup⟩, hframe⟩

end Keyed

variable {total reserved : Nat} {k : Kernel}

/-- A kernel in balance keeps exact accounts. -/
theorem Fits.accounted (h : Fits total reserved k) : k.Accounted reserved := by
  have hkeys := map_fst_keyedTables_nodup h.proper.nodup
  have hnamed := map_snd_keyedTables k.sched.tasks
  have hbacks := h.balanced.backs
  have hcount : ∀ f, (k.placesOf f).ncard =
      (namedFrames (tablesOf k.sched.tasks)).count f := by
    intro f
    rw [placesOf_eq, ncard_placesOf hkeys, hnamed]
  have hfinite : ∀ f, (k.placesOf f).Finite := by
    intro f
    rw [placesOf_eq]
    exact finite_placesOf _ f
  constructor
  · exact hfinite
  · intro f hf
    rw [hbacks.refCount_eq, if_neg (Nat.not_lt_of_le hf), Nat.zero_add, hcount]
  · intro f hf
    have hzero := hbacks.count_of_lt_reserved hf
    constructor
    · rw [hbacks.refCount_eq, if_pos hf, hzero]
    · rw [← Set.ncard_eq_zero (hfinite f), hcount, hzero]
  · have hplaced : {f | (k.placesOf f).Nonempty}.ncard =
        (namedFrames (tablesOf k.sched.tasks)).toFinset.card := by
      simp only [placesOf_eq]
      rw [ncard_placed, hnamed]
    have hall := hbacks.freeCount_add_reserved_add_card
    show k.pool.total - k.pool.freeCount = _
    rw [hplaced, hbacks.total_eq]
    omega
  · exact h.bare

/-- Through every history of a kernel its accounts are exact. -/
theorem accounted_of_boot {config : Config} {k : Kernel} (h : boot config = .ok k)
    (requests : List Request) : (k.serveAll requests).2.Accounted config.reservedFrames := by
  obtain ⟨hfault, rfl⟩ := boot_eq_ok_iff.mp h
  exact Fits.accounted (serveAll_fits (ofConfig_fits hfault) requests)

/-- The default machine with a process that forks and terminates. -/
theorem accounted_default :
    boot Config.default = .ok (ofConfig Config.default) ∧
    ((ofConfig Config.default).serveAll
      [.createInit, .fork initPid, .access 2 (.writeByte (VirtAddr.ofPage 0) 7),
        .exit initPid 0]).2.Accounted Config.default.reservedFrames :=
  have hboot : boot Config.default = .ok (ofConfig Config.default) :=
    boot_eq_ok_iff.mpr ⟨by decide, rfl⟩
  ⟨hboot, accounted_of_boot hboot _⟩

end Kernelet.Kernel
