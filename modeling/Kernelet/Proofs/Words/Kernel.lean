import Kernelet.Proofs.Kernel.Idling
import Kernelet.Proofs.Kernel.Images
import Kernelet.Proofs.Kernel.Tables
import Kernelet.Proofs.Words.Memory
import Kernelet.Words.Kernel

/-!
A kernel on words does what it does without a limit, if only its configuration is without fault
(`runs_on_words`). Only the calculations that `Words` writes out are at issue. That memory and
the space of a process are sizes in a word bounds every calculation with frames and pages, for
any requests: the balance of pool and tables does so for the frames (`Proofs.Words.Memory`), and
the loop that maps an image for its size, which is worked out only once all pages lie within the
space (`Proofs.Kernel.Images`). A table takes a page off its count only if it counts one
(`Proofs.Kernel.Tables`).
-/

namespace Kernelet

/-- A table that finds a page has one to take off its count. -/
theorem PageTable.Built.unmap?_eq {table : PageTable} (h : table.Built) (p : Nat) :
    table.unmap? p = some (table.unmap p) := by
  have hremoved := table.unmap_fst p
  have hcount := table.mappedCount_unmap p
  unfold unmap?
  rcases hrun : table.unmap p with ⟨_ | entry, after⟩
  · rfl
  · rw [hrun] at hremoved hcount
    rw [← hremoved] at hcount
    have hless : after.mappedCount = table.mappedCount - 1 := hcount
    dsimp only
    rw [Word.sub?_eq (h.mappedCount_pos hremoved.symm)]
    dsimp only [Option.bind_eq_bind, Option.bind_some]
    rw [← hless]
    rfl

namespace Kernel

variable {total reserved : Nat} {k : Kernel} {tables : List PageTable}

/-- The size of an image is worked out only where it is within the space. -/
theorem newImage?_eq (h : Balanced total reserved k.pool tables)
    (hwords : total * pageSize < UInt64.size) (pages : Nat) :
    k.newImage? pages = some (k.newImage pages) := by
  have hspace : Memory.Fits total reserved tables ⟨k.newSpace, k.pool⟩ :=
    h.cons_empty (PageTable.lookup_new _)
  have hsize : ∀ m, k.newImage pages = ⟨.ok (), m⟩ → pages * pageSize ≤ k.config.taskSize.toNat :=
    fun _ => mul_le_taskSize_of_newImage h
  unfold newImage at hsize
  unfold newImage? newImage
  rw [Memory.mapPages?_eq hspace hwords]
  rcases hrun : (Memory.mk k.newSpace k.pool).mapPages 0 .userData pages with ⟨e | _, m⟩
  · rfl
  · rw [hrun] at hsize
    have hstop := Nat.lt_of_le_of_lt (hsize _ rfl) k.config.taskSize.toNat_lt
    dsimp only [Option.bind_eq_bind, Option.bind_some]
    rw [Word.mul?_eq hstop]
    rfl

theorem spawn?_eq (h : Fits total reserved k) (hwords : total * pageSize < UInt64.size)
    (name : String) (parent : Pid) (pages : Nat) :
    k.spawn? name parent pages = some (k.spawn name parent pages) := by
  unfold spawn? spawn
  split
  · rfl
  · rw [newImage?_eq h.balanced hwords]
    rcases k.newImage pages with ⟨e | _, m⟩
    · rfl
    · rfl

theorem createInit?_eq (h : Fits total reserved k) (hwords : total * pageSize < UInt64.size) :
    k.createInit? = some k.createInit := by
  unfold createInit? createInit
  split
  · rfl
  · exact spawn?_eq h hwords "init" 0 initPages

theorem fork?_eq (h : Fits total reserved k) (parent : Pid) :
    k.fork? parent = some (k.fork parent) := by
  unfold fork? fork
  cases hfind : k.find? parent with
  | none => rfl
  | some task =>
      dsimp only
      split
      · rfl
      · cases hspace : task.space with
        | none => rfl
        | some space =>
            dsimp only
            rw [Memory.fork?_eq (h.focus_space hfind hspace)]
            rcases (Memory.mk space k.pool).fork with ⟨e | child, m⟩
            · rfl
            · rfl

theorem access?_eq (h : Fits total reserved k) (hwords : total * pageSize < UInt64.size)
    (pid : Pid) (request : Memory.Request) :
    k.access? pid request = some (k.access pid request) := by
  unfold access? access accessSpace? accessSpace
  cases hfind : k.find? pid with
  | none => rfl
  | some task =>
      dsimp only
      cases hspace : task.space with
      | none => rfl
      | some space =>
          dsimp only
          rw [Memory.serve?_eq (h.focus_space hfind hspace) hwords]
          rfl

/-- Every request is served on words as it is without a limit. -/
theorem serve?_eq (h : Fits total reserved k) (hwords : total * pageSize < UInt64.size)
    (request : Request) : k.serve? request = some (k.serve request) := by
  cases request with
  | createInit =>
      rw [serve?, createInit?_eq h hwords]
      rfl
  | spawn name parent pages =>
      rw [serve?, spawn?_eq h hwords]
      rfl
  | fork parent =>
      rw [serve?, fork?_eq h]
      rfl
  | access pid request => exact access?_eq h hwords pid request
  | schedule => rfl
  | timerTick => rfl
  | sleep interruptible => rfl
  | wakeAll => rfl
  | exit pid code => rfl
  | wait parent => rfl
  | waitOrBlock parent => rfl
  | kill pid signal => rfl
  | exec pid => rfl
  | shutdown => rfl

theorem serveAll?_eq (h : Fits total reserved k) (hwords : total * pageSize < UInt64.size)
    (requests : List Request) : k.serveAll? requests = some (k.serveAll requests) := by
  induction requests generalizing k with
  | nil => rfl
  | cons request rest ih =>
      unfold serveAll? serveAll
      rw [serve?_eq h hwords]
      dsimp only [Option.bind_eq_bind, Option.bind_some]
      rw [ih (serve_fits h request)]
      rfl

/-- Memory is as large as the configuration says, and that is a word. -/
theorem totalFrames_mul_lt (config : Config) :
    config.totalFrames * pageSize < UInt64.size :=
  Nat.lt_of_le_of_lt (Nat.div_mul_le_self _ _) config.memorySize.toNat_lt

theorem boot?_eq (config : Config) : boot? config = some (boot config) := by
  unfold boot? boot
  cases config.validate with
  | error e => rfl
  | ok _ =>
      dsimp only
      rw [FramePool.new?_eq (totalFrames_mul_lt config)]
      rfl

theorem tickMs?_eq {config : Config} (h : config.fault? = none) :
    config.tickMs? = some config.tickMs := by
  obtain ⟨-, -, -, -, -, -, hhz⟩ := Config.fault?_eq_none_iff.mp h
  exact Word.div?_eq hhz

/-- What can be worked out on words in one state of a machine. -/
structure WorksOut (config : Config) (k : Kernel) : Prop where
  allocate : k.pool.allocate? = some k.pool.allocate
  stats : k.pool.stats? = some k.pool.stats
  unmap : ∀ task ∈ k.sched.tasks, ∀ space, task.space = some space →
    ∀ p, space.table.unmap? p = some (space.table.unmap p)
  translate : ∀ task ∈ k.sched.tasks, ∀ space, task.space = some space →
    ∀ a, space.table.translate? a = some (space.table.translate a)
  /-- The size of an image is needed only once all of its pages are mapped. -/
  image : ∀ pages m, k.newImage pages = ⟨.ok (), m⟩ → pages * pageSize ≤ config.taskSize.toNat
  /-- As long as the count of numbers is a word after it too, the next number is one that has not
  been in use. -/
  spawn : ∀ name parent pages, none ∈ k.sched.slots → k.sched.allocatePid.2.NumbersFit →
    (parent = 0 ∨ k.sched.contains parent = true) →
    SpawnLimits (config.taskSize.toNat / pageSize) k.pool.freeCount pages
      (k.spawn name parent pages).result

theorem worksOut (h : Fits total reserved k) (hwords : total * pageSize < UInt64.size)
    (hbuilt : k.sched.TablesBuilt) : WorksOut k.config k where
  allocate := h.balanced.backs.allocate?_eq hwords
  stats := h.balanced.backs.stats?_eq hwords
  unmap := fun task hmem space hspace p => (hbuilt.space hmem hspace).unmap?_eq p
  translate := by
    intro task hmem space hspace a
    have htable : space.table ∈ tablesOf k.sched.tasks :=
      mem_tablesOf.mpr ⟨task, hmem, space, hspace, rfl⟩
    exact h.balanced.translate?_eq htable hwords a
  image := fun _ _ hrun => mul_le_taskSize_of_newImage h.balanced hrun
  spawn := fun name _ pages hroom hfit hparent =>
    spawn_limits h hroom (Scheduler.numbersFit_of_allocatePid hfit) name hparent pages

/-- A machine whose configuration is without fault starts, and whatever is asked of it, none of
these overflows a word, falls below zero or divides by zero: the bytes of memory, used and free,
and of an image, the base of a frame and the address of a byte in it, the frames that are not
reserved, that are in use, and that are left after one is taken, the pages left after one is
unmapped, and the length of a tick. A process whose parent exists, and for which there is a slot
and a number that has not been in use, is created exactly if its pages fit the space of a process
and the free frames. Nothing is said of adding one to a clock or to a count of selections,
references or numbers of processes. -/
theorem runs_on_words {config : Config} (h : config.validate = .ok ()) :
    ∃ k, boot config = .ok k ∧ boot? config = some (.ok k) ∧
      config.tickMs? = some config.tickMs ∧
      ∀ requests, k.serveAll? requests = some (k.serveAll requests) ∧
        WorksOut config (k.serveAll requests).2 := by
  have hfault : config.fault? = none := by
    unfold Config.validate at h
    split at h
    · cases h
    · assumption
  have hboot : boot config = .ok (ofConfig config) := boot_eq_ok_iff.mpr ⟨hfault, rfl⟩
  have hwords := totalFrames_mul_lt config
  have hfits := ofConfig_fits hfault
  refine ⟨ofConfig config, hboot, ?_, tickMs?_eq hfault, ?_⟩
  · rw [boot?_eq, hboot]
  · intro requests
    refine ⟨serveAll?_eq hfits hwords requests, ?_⟩
    have hsame : ((ofConfig config).serveAll requests).2.config = config :=
      config_serveAll (ofConfig_dispatched config) requests
    have hworks := worksOut (serveAll_fits hfits requests) hwords
      (serveAll_tablesBuilt hfits (ofConfig_tablesBuilt config) requests)
    rw [hsame] at hworks
    exact hworks

/-- More pages than a word can count bytes of are refused for want of frames. -/
theorem spawn_small_outOfMemory :
    Config.small.validate = .ok () ∧ ∃ k, boot Config.small = .ok k ∧
      (k.spawn "a" 0 (UInt64.size - 1)).result = .error .outOfMemory := by
  have hvalid : Config.small.validate = .ok () := by decide
  refine ⟨hvalid, ?_⟩
  obtain ⟨k, hboot, -, -, hrun⟩ := runs_on_words hvalid
  obtain ⟨-, rfl⟩ := boot_eq_ok_iff.mp hboot
  refine ⟨_, hboot, ?_⟩
  have hroom : none ∈ (ofConfig Config.small).sched.slots :=
    List.mem_replicate.mpr ⟨by decide, rfl⟩
  exact ((hrun []).2.spawn "a" 0 (UInt64.size - 1) hroom (by decide)
    (Or.inl rfl)).outOfMemory_iff.mpr (by decide)

end Kernel

end Kernelet
