import Kernelet.Proofs.Kernel.Balance
import Kernelet.Proofs.Memory.CleanFailure
import Kernelet.Proofs.Memory.PageMap

/-!
The page tables of tasks are made by the operations on tables, and by nothing else
(`serveAll_tablesBuilt`). A table that is made so stands for a finite map and counts its pages
right (`Built.exists_stands`), which is what lets it take one off its count for a page that it
finds.

Nothing is asked here of the frames that a table names.
-/

namespace Kernelet

namespace PageTable

/-- A table that is made by the operations on tables stands for a map. -/
theorem Built.exists_stands {table : PageTable} (h : table.Built) :
    ∃ n, ∃ m : PageMap n, table.Stands m := by
  induction h with
  | new maxPages => exact ⟨maxPages, PageMap.empty maxPages, stands_new maxPages⟩
  | @map table after p frame flags _ hmap ih =>
      obtain ⟨n, m, hstands⟩ := ih
      have hserved := (hstands.serve (.map p frame flags)).2
      rw [PageTable.serve, hmap] at hserved
      exact ⟨n, _, hserved⟩
  | unmap _ p ih =>
      obtain ⟨n, m, hstands⟩ := ih
      exact ⟨n, _, (hstands.serve (.unmap p)).2⟩
  | setFlags _ p flags ih =>
      obtain ⟨n, m, hstands⟩ := ih
      exact ⟨n, _, (hstands.serve (.setFlags p flags)).2⟩
  | clear _ ih =>
      obtain ⟨n, m, hstands⟩ := ih
      exact ⟨n, _, (hstands.serve .clear).2⟩

/-- A table that maps a page counts at least one. -/
theorem Built.mappedCount_pos {table : PageTable} (h : table.Built) {p : Nat} {entry : PageEntry}
    (hlookup : table.lookup p = some entry) : 0 < table.mappedCount := by
  obtain ⟨n, m, hstands⟩ := h.exists_stands
  have hlt : p < n := hstands.maxPages_eq ▸ h.lt_maxPages hlookup
  rw [hstands.lookup_eq, m.find?_of_lt hlt] at hlookup
  rw [hstands.mappedCount_eq]
  refine Finset.card_pos.mpr ⟨⟨p, hlt⟩, PageMap.mem_mapped.mpr ?_⟩
  rw [hlookup]
  rfl

theorem Built.without {table : PageTable} (h : table.Built) (pages : List (Nat × PageEntry)) :
    (table.without pages).Built := by
  induction pages generalizing table with
  | nil => exact h
  | cons x rest ih => exact ih (h.unmap x.1)

end PageTable

namespace Memory

variable {m : Memory}

theorem mapPage_built (h : m.space.table.Built) (a : VirtAddr) (flags : PageFlags) :
    (m.mapPage a flags).state.space.table.Built := by
  unfold mapPage
  split
  · exact h
  · split
    · split
      · exact h
      · split
        · exact h
        · rename_i hmap
          exact h.map hmap
    · exact h

theorem mapPages_built (h : m.space.table.Built) (first : Nat) (flags : PageFlags)
    (count : Nat) : (m.mapPages first flags count).state.space.table.Built := by
  induction count generalizing m first with
  | zero => exact h
  | succ count ih =>
      have hpage := mapPage_built h (VirtAddr.ofPage first) flags
      unfold mapPages
      rcases hrun : m.mapPage (VirtAddr.ofPage first) flags with ⟨_ | _, after⟩
      · rw [hrun] at hpage
        exact hpage
      · rw [hrun] at hpage
        exact ih hpage (first + 1)

theorem expandBrk_built (h : m.space.table.Built) (newBrk : VirtAddr) :
    (m.expandBrk newBrk).2.space.table.Built := by
  rcases m.expandBrk_state newBrk with hsame | ⟨first, count, stop, hgrown⟩
  · rw [hsame]
    exact h
  · rw [hgrown]
    exact mapPages_built h first .userData count

theorem makePrivate_built (h : m.space.table.Built) (p : Nat) (entry : PageEntry) :
    (m.makePrivate p entry).state.space.table.Built := by
  unfold makePrivate
  split
  · exact h.setFlags p entry.flags.owned
  · split
    · exact h
    · split
      · exact h
      · dsimp only
        split
        · exact h
        · rename_i hmap
          exact h.map hmap

theorem storeByte_built (h : m.space.table.Built) (a : VirtAddr) (byte : UInt8) :
    (m.storeByte a byte).state.space.table.Built := by
  unfold storeByte
  split
  · exact h
  · split
    · exact h
    · exact h

theorem writeByte_built (h : m.space.table.Built) (a : VirtAddr) (byte : UInt8) :
    (m.writeByte a byte).state.space.table.Built := by
  unfold writeByte
  split
  · exact h
  · rename_i entry _
    split
    · have hprivate := makePrivate_built h a.page entry
      rcases hrun : m.makePrivate a.page entry with ⟨_ | _, after⟩
      · rw [hrun] at hprivate
        exact hprivate
      · rw [hrun] at hprivate
        exact storeByte_built hprivate a byte
    · split
      · exact storeByte_built h a byte
      · exact h

theorem writeFrom_built (h : m.space.table.Built) (a : VirtAddr) (i : Nat) (bytes : List UInt8) :
    (m.writeFrom a i bytes).state.space.table.Built := by
  induction bytes generalizing m i with
  | nil => exact h
  | cons byte rest ih =>
      unfold writeFrom
      cases rangeAddress a i with
      | error e => exact h
      | ok b =>
          have hbyte := writeByte_built h b byte
          dsimp only
          rcases hrun : m.writeByte b byte with ⟨_ | _, after⟩
          · rw [hrun] at hbyte
            exact hbyte
          · rw [hrun] at hbyte
            exact ih hbyte (i + 1)

theorem serve_built (h : m.space.table.Built) (request : Request) :
    (m.serve request).state.space.table.Built := by
  cases request with
  | map a flags => exact mapPage_built h a flags
  | expandBrk newBrk => exact expandBrk_built h newBrk
  | readByte a => exact h
  | writeByte a byte => exact writeByte_built h a byte
  | readRange a length => exact h
  | writeRange a bytes => exact writeFrom_built h a 0 bytes
  | release => exact h.clear
  | setCode start stop => exact h
  | setData start stop => exact h

/-- What a child loses is unmapped, and what it shares has its flags set. -/
theorem Sharing.pages_built {s : Sharing} (hparent : s.parent.Built) (hchild : s.child.Built)
    (pages : List (Nat × PageEntry)) :
    (s.pages pages).state.parent.Built ∧ (s.pages pages).state.child.Built := by
  induction pages generalizing s with
  | nil => exact ⟨hparent, hchild⟩
  | cons x rest ih =>
      obtain ⟨p, entry⟩ := x
      unfold Sharing.pages Sharing.page
      cases s.pool.share entry.frame with
      | error e => exact ⟨hparent, hchild.without ((p, entry) :: rest)⟩
      | ok pool => exact ih (hparent.setFlags p _) (hchild.setFlags p _)

theorem fork_built (h : m.space.table.Built) :
    m.fork.state.space.table.Built ∧ ∀ child, m.fork.result = .ok child → child.table.Built := by
  have hpages := Sharing.pages_built (s := ⟨m.space.table, m.space.table, m.pool⟩) h h
    m.space.table.entries
  unfold fork
  dsimp only
  rcases hrun : Sharing.pages ⟨m.space.table, m.space.table, m.pool⟩
    m.space.table.entries with ⟨e | _, s⟩
  · rw [hrun] at hpages
    refine ⟨hpages.1, ?_⟩
    intro child hchild
    cases hchild
  · rw [hrun] at hpages
    refine ⟨hpages.1, ?_⟩
    rintro child ⟨rfl⟩
    exact hpages.2

end Memory

/-- Every task that owns a space has a table that the operations on tables made. -/
def Scheduler.TablesBuilt (s : Scheduler) : Prop :=
  ∀ table ∈ tablesOf s.tasks, table.Built

namespace Scheduler.TablesBuilt

variable {s after : Scheduler} {task : Task}

theorem of_sameOutline (h : s.TablesBuilt) (hsame : s.SameOutline after) : after.TablesBuilt := by
  unfold TablesBuilt
  rw [hsame.tablesOf_eq]
  exact h

theorem mapTasks (h : s.TablesBuilt) {change : Task → Task} (hkeeps : Task.KeepsSpace change) :
    (s.mapTasks change).TablesBuilt := by
  unfold TablesBuilt
  rw [tablesOf_mapTasks hkeeps]
  exact h

theorem of_subset (h : s.TablesBuilt) (hsubset : after.tasks ⊆ s.tasks) : after.TablesBuilt := by
  intro table hmem
  obtain ⟨task, htask, htable⟩ := mem_tablesOf.mp hmem
  exact h table (mem_tablesOf.mpr ⟨task, hsubset htask, htable⟩)

theorem space (h : s.TablesBuilt) (hmem : task ∈ s.tasks) {space : AddressSpace}
    (hspace : task.space = some space) : space.table.Built :=
  h space.table (mem_tablesOf.mpr ⟨task, hmem, space, hspace, rfl⟩)

theorem put (h : s.TablesBuilt) (hnew : ∀ space, task.space = some space → space.table.Built) :
    (s.put task).TablesBuilt := by
  intro table hmem
  obtain ⟨other, hother, space, hspace, rfl⟩ := mem_tablesOf.mp hmem
  unfold Scheduler.put at hother
  rw [tasks_update] at hother
  obtain ⟨old, hold, rfl⟩ := List.mem_map.mp hother
  split at hspace
  · exact hnew space hspace
  · exact h.space hold hspace

theorem add (h : s.TablesBuilt) (hnew : ∀ space, task.space = some space → space.table.Built)
    (hrun : s.add task = .ok after) : after.TablesBuilt := by
  intro table hmem
  have hperm := tablesOf_perm (tasks_add_perm hrun)
  rw [hperm.mem_iff, tablesOf_cons, List.mem_append] at hmem
  rcases hmem with hmem | hold
  · obtain ⟨space, hspace, rfl⟩ := Task.mem_tables.mp hmem
    exact hnew space hspace
  · exact h table hold

end Scheduler.TablesBuilt

namespace Kernel

variable {total reserved : Nat} {k after : Kernel} {pid : Pid}

theorem reselect_tablesBuilt (h : k.sched.TablesBuilt) (pid : Pid) :
    (k.reselect pid).sched.TablesBuilt := by
  unfold reselect
  split
  · exact h.of_sameOutline (.schedule k.sched)
  · exact h

theorem enlist_tablesBuilt (h : k.sched.TablesBuilt) {task : Task}
    (hnew : ∀ space, task.space = some space → space.table.Built) :
    (k.enlist task).sched.TablesBuilt := by
  rcases k.enlist_cases task with ⟨sched, hadd, -, hrun⟩ | ⟨e, -, hrun⟩
  · rw [hrun]
    exact Scheduler.TablesBuilt.add (s := k.sched.allocatePid.2) h hnew hadd
  · rw [hrun]
    exact h

theorem newSpace_built (k : Kernel) : k.newSpace.table.Built :=
  .new _

theorem newImage_built (k : Kernel) (pages : Nat) :
    (k.newImage pages).state.space.table.Built := by
  have hpages := Memory.mapPages_built (m := ⟨k.newSpace, k.pool⟩) k.newSpace_built 0 .userData
    pages
  unfold newImage
  rcases hrun : (Memory.mk k.newSpace k.pool).mapPages 0 .userData pages with ⟨_ | _, m⟩
  · rw [hrun] at hpages
    exact hpages.clear
  · rw [hrun] at hpages
    exact hpages

theorem spawn_tablesBuilt (h : k.sched.TablesBuilt) (name : String) (parent : Pid)
    (pages : Nat) : (k.spawn name parent pages).state.sched.TablesBuilt := by
  have himage := k.newImage_built pages
  rcases spawn_cases k name parent pages with
    ⟨⟨e, hrun⟩, -⟩ | ⟨-, m, ⟨e, -, hrun⟩ | ⟨hbuilt, hrun⟩⟩
  · rw [hrun]
    exact h
  · rw [hrun]
    exact h
  · rw [hbuilt] at himage
    rw [hrun]
    apply enlist_tablesBuilt (k := { k with pool := m.pool }) h
    rintro space ⟨rfl⟩
    exact himage

theorem fork_tablesBuilt (h : k.sched.TablesBuilt) (parent : Pid) :
    (k.fork parent).state.sched.TablesBuilt := by
  rcases fork_cases k parent with
    ⟨⟨e, hrun⟩, -⟩ | ⟨task, space, m, hfind, -, hspace, hfork⟩
  · rw [hrun]
    exact h
  · have hforked := Memory.fork_built (m := ⟨space, k.pool⟩)
      (h.space (Scheduler.mem_tasks_of_find? hfind) hspace)
    rcases hfork with ⟨e, hfailed, hrun⟩ | ⟨child, hdone, hrun⟩
    · rw [hfailed] at hforked
      rw [hrun]
      apply h.put
      rintro other ⟨rfl⟩
      exact hforked.1
    · rw [hdone] at hforked
      rw [hrun]
      apply enlist_tablesBuilt
      · apply h.put
        rintro other ⟨rfl⟩
        exact hforked.1
      · rintro other ⟨rfl⟩
        exact hforked.2 child rfl

theorem bury_tablesBuilt (h : k.sched.TablesBuilt) (task : Task) (code : Int) :
    (k.bury task code).sched.TablesBuilt := by
  have hput : (k.sched.put (task.terminated code)).TablesBuilt := by
    apply h.put
    intro space hspace
    cases hspace
  exact (hput.mapTasks ((Task.KeepsSpace.adopt (heir task.pid)).ite _)).mapTasks
    (notifyParent_keepsSpace.ite _)

theorem exit_tablesBuilt (h : k.sched.TablesBuilt) {code : Int}
    (hrun : k.exit pid code = .ok after) : after.sched.TablesBuilt := by
  obtain ⟨task, -, -, rfl⟩ := exit_eq_ok hrun
  exact reselect_tablesBuilt (bury_tablesBuilt h task code) pid

theorem kill_tablesBuilt (h : k.sched.TablesBuilt) {signal : Signal}
    (hrun : k.kill pid signal = .ok after) : after.sched.TablesBuilt := by
  obtain ⟨task, hfind, ⟨-, rfl⟩ | ⟨-, hsent⟩⟩ := kill_eq_ok hrun
  · exact h
  · have hput : (k.sched.put (task.send signal)).TablesBuilt := by
      apply h.put
      intro space hspace
      rw [Task.space_eq_of_outline (task.outline_send signal)] at hspace
      exact h.space (Scheduler.mem_tasks_of_find? hfind) hspace
    rcases hsent with ⟨-, hexit⟩ | ⟨-, rfl⟩ | ⟨-, -, rfl⟩
    · exact exit_tablesBuilt hput hexit
    · exact reselect_tablesBuilt hput pid
    · exact hput

theorem wait_tablesBuilt (h : k.sched.TablesBuilt) (parent : Pid) :
    (k.wait parent).state.sched.TablesBuilt := by
  have hmark : ∀ waiting,
      (k.sched.update parent (Task.markWaiting waiting)).TablesBuilt :=
    fun waiting => h.mapTasks ((markWaiting_keepsSpace waiting).ite _)
  rcases wait_cases k parent with
    ⟨-, child, -, -, hrun⟩ | ⟨⟨e, hrun, -⟩, -⟩ | ⟨-, -, -, hrun⟩
  · rw [hrun]
    apply (hmark false).of_subset
    show (Machine.remove _ child.pid).2.sched.tasks ⊆ _
    rw [Machine.sched_remove, Scheduler.tasks_remove]
    exact List.filter_sublist.subset
  · rw [hrun]
    exact h
  · rw [hrun]
    exact hmark true

theorem blockProcess_tablesBuilt (h : k.sched.TablesBuilt) (pid : Pid) :
    (k.blockProcess pid).state.sched.TablesBuilt := by
  rcases blockProcess_cases k pid with ⟨e, hrun⟩ | ⟨task, blocked, hfind, hblock, hrun⟩
  · rw [hrun]
    exact h
  · rw [hrun]
    apply reselect_tablesBuilt
    apply h.put
    intro space hspace
    rw [Task.space_eq_of_outline (Task.outline_block hblock)] at hspace
    exact h.space (Scheduler.mem_tasks_of_find? hfind) hspace

theorem waitOrBlock_tablesBuilt (h : k.sched.TablesBuilt) (parent : Pid) :
    (k.waitOrBlock parent).state.sched.TablesBuilt := by
  have hwait := wait_tablesBuilt h parent
  rcases waitOrBlock_cases k parent with ⟨-, hrun⟩ | ⟨-, hrun⟩
  · rw [hrun]
    exact hwait
  · rw [hrun]
    exact blockProcess_tablesBuilt hwait parent

theorem exec_tablesBuilt (h : k.sched.TablesBuilt) (hrun : k.exec pid = .ok after) :
    after.sched.TablesBuilt := by
  obtain ⟨task, -, -, rfl⟩ := exec_eq_ok hrun
  apply h.put
  rintro space ⟨rfl⟩
  exact k.newSpace_built

theorem access_tablesBuilt (h : k.sched.TablesBuilt) (pid : Pid) (request : Memory.Request) :
    (k.access pid request).state.sched.TablesBuilt := by
  rcases access_cases k pid request with ⟨e, hrun, -⟩ | ⟨task, space, hfind, hspace, hrun⟩
  · rw [hrun]
    exact h
  · rw [hrun]
    apply h.put
    rintro other ⟨rfl⟩
    exact Memory.serve_built (h.space (Scheduler.mem_tasks_of_find? hfind) hspace) request

theorem commit_tablesBuilt (h : k.sched.TablesBuilt) {result : Except KernelError Kernel}
    (hresult : ∀ after, result = .ok after → after.sched.TablesBuilt) :
    (k.commit result).state.sched.TablesBuilt := by
  cases result with
  | ok after => exact hresult after rfl
  | error e => exact h

/-- Every request leaves each task a table that the operations on tables made. -/
theorem serve_tablesBuilt (hproper : k.sched.Proper) (h : k.sched.TablesBuilt)
    (request : Request) : (k.serve request).state.sched.TablesBuilt := by
  cases request with
  | createInit =>
      show (k.createInit).state.sched.TablesBuilt
      unfold createInit
      split
      · exact h
      · exact spawn_tablesBuilt h "init" 0 initPages
  | spawn name parent pages => exact spawn_tablesBuilt h name parent pages
  | schedule => exact h.of_sameOutline (.schedule k.sched)
  | timerTick =>
      show k.timerTick.2.sched.TablesBuilt
      rw [sched_timerTick]
      exact h.of_sameOutline (.timerTick hproper)
  | sleep interruptible =>
      show (k.sleep interruptible).state.sched.TablesBuilt
      unfold sleep
      split
      · exact h
      · rename_i hrun
        exact h.of_sameOutline (.sleep hproper hrun)
  | wakeAll => exact h.of_sameOutline (.wakeAll k.sched)
  | fork parent => exact fork_tablesBuilt h parent
  | exit pid code => exact commit_tablesBuilt h fun after hrun => exit_tablesBuilt h hrun
  | wait parent => exact wait_tablesBuilt h parent
  | waitOrBlock parent => exact waitOrBlock_tablesBuilt h parent
  | kill pid signal => exact commit_tablesBuilt h fun after hrun => kill_tablesBuilt h hrun
  | exec pid => exact commit_tablesBuilt h fun after hrun => exec_tablesBuilt h hrun
  | access pid request => exact access_tablesBuilt h pid request
  | shutdown => exact h

theorem serveAll_tablesBuilt (hfits : Fits total reserved k) (h : k.sched.TablesBuilt)
    (requests : List Request) : (k.serveAll requests).2.sched.TablesBuilt := by
  refine (serveAll_invariant (fun k => Fits total reserved k ∧ k.sched.TablesBuilt)
    (fun k request hk => ?_) ⟨hfits, h⟩ requests).2
  exact ⟨serve_fits hk.1 request, serve_tablesBuilt hk.1.proper hk.2 request⟩

theorem ofConfig_tablesBuilt (config : Config) : (ofConfig config).sched.TablesBuilt := by
  intro table hmem
  unfold ofConfig at hmem
  rw [Scheduler.tasks_new] at hmem
  cases hmem

end Kernel

end Kernelet
