import Kernelet.Proofs.Process.Kinship

/-!
Parent links. A link is sound if it is 0, for no parent, or leads to a task that
lives and can reap. When a task ends its children are handed on, and their links
are sound again only if the heir lives (`parented_exit_iff`). A task that joins
the family brings one new link (`parented_cons_iff`). Nothing else can spoil a
link: who is reaped has terminated, and no sound link led there.
-/

namespace Kernelet.Kin

/-- Task `pid` is there and lives. -/
def Alive (family : List Kin) (pid : Pid) : Prop :=
  ∃ task ∈ family, task.pid = pid ∧ task.zombie = false

/-- A task whose parent is `ppid` has no parent, or one that can reap it. -/
def Linked (family : List Kin) (ppid : Pid) : Prop :=
  ppid = 0 ∨ Alive family ppid

/-- Every parent link is sound. -/
def Parented (family : List Kin) : Prop :=
  ∀ child ∈ family, Linked family child.ppid

variable {family after : List Kin} {child ending : Kin} {pid ppid : Pid}

theorem Alive.mark (h : Alive family pid) (parent : Pid) (waiting : Bool) :
    Alive (family.map (mark parent waiting)) pid := by
  obtain ⟨task, hmem, hpid, hlive⟩ := h
  exact ⟨Kin.mark parent waiting task, List.mem_map_of_mem hmem, hpid, hlive⟩

/-- Whoever lives is still there when a zombie has been reaped. -/
theorem Alive.reaped (h : Alive family pid) (hordered : Ordered family) (hmem : child ∈ family)
    (hdead : child.zombie = true) :
    Alive (family.filter fun task => task.pid != child.pid) pid := by
  obtain ⟨task, htask, hpid, hlive⟩ := h
  have hother : task.pid ≠ child.pid := by
    intro heq
    rw [hordered.eq_of_pid_eq hmem htask heq, hdead] at hlive
    cases hlive
  exact ⟨task, List.mem_filter.mpr ⟨htask, bne_iff_ne.mpr hother⟩, hpid, hlive⟩

theorem ppid_exit (task : Kin) :
    (exit pid ppid task).ppid = if task.ppid = pid then Kernel.heir pid else task.ppid :=
  rfl

theorem alive_exit_iff {q : Pid} :
    Alive (family.map (exit pid ppid)) q ↔ Alive family q ∧ q ≠ pid := by
  constructor
  · rintro ⟨left, hmem, rfl, hlive⟩
    obtain ⟨task, htask, rfl⟩ := List.mem_map.mp hmem
    simp only [exit, Bool.or_eq_false_iff, beq_eq_false_iff_ne] at hlive
    exact ⟨⟨task, htask, rfl, hlive.1⟩, hlive.2⟩
  · rintro ⟨⟨task, htask, rfl, hlive⟩, hother⟩
    refine ⟨exit pid ppid task, List.mem_map_of_mem htask, rfl, ?_⟩
    simp [exit, hlive, hother]

/-- A zombie is no parent that can reap. -/
theorem Ordered.not_linked (h : Ordered family) (hmem : ending ∈ family)
    (hdead : ending.zombie = true) : ¬ Linked family ending.pid := by
  rintro (hzero | ⟨task, htask, hpid, hlive⟩)
  · have hlt := h.ppid_lt ending hmem
    rw [hzero] at hlt
    exact Nat.not_lt_zero _ hlt
  · rw [h.eq_of_pid_eq hmem htask hpid, hdead] at hlive
    cases hlive

theorem Parented.mark (h : Parented family) (parent : Pid) (waiting : Bool) :
    Parented (family.map (mark parent waiting)) := by
  intro marked hmem
  obtain ⟨task, htask, rfl⟩ := List.mem_map.mp hmem
  exact (h task htask).imp_right fun hlive => hlive.mark parent waiting

theorem Parented.reaped (h : Parented family) (hordered : Ordered family) (hmem : child ∈ family)
    (hdead : child.zombie = true) :
    Parented (family.filter fun task => task.pid != child.pid) := by
  intro task htask
  exact (h task (List.mem_filter.mp htask).1).imp_right fun hlive =>
    hlive.reaped hordered hmem hdead

/-- The family is spoiled by a new member whose parent is not alive, and by no
other. -/
theorem parented_cons_iff (h : Parented family) (hordered : Ordered after)
    (hperm : after.Perm (child :: family)) :
    Parented after ↔ Linked family child.ppid := by
  constructor
  · intro hafter
    refine (hafter child (hperm.mem_iff.mpr List.mem_cons_self)).imp_right ?_
    rintro ⟨task, hmem, hpid, hlive⟩
    rcases List.mem_cons.mp (hperm.mem_iff.mp hmem) with rfl | hold
    · have hlt := hordered.ppid_lt task hmem
      exact absurd hpid.symm (Nat.ne_of_lt hlt)
    · exact ⟨task, hold, hpid, hlive⟩
  · have hkept : ∀ {q : Pid}, Linked family q → Linked after q := by
      rintro q (hzero | ⟨task, hmem, hpid, hlive⟩)
      · exact Or.inl hzero
      · exact Or.inr ⟨task, hperm.mem_iff.mpr (List.mem_cons_of_mem _ hmem), hpid, hlive⟩
    intro hnew task hmem
    rcases List.mem_cons.mp (hperm.mem_iff.mp hmem) with rfl | hold
    · exact hkept hnew
    · exact hkept (h task hold)

/-- No link is spoiled where nobody ends and nobody is new. -/
theorem Parented.step (h : Parented family) (hordered : Ordered family)
    (hstep : Step family after) (hold : ∀ task ∈ after, ∃ old ∈ family, old.pid = task.pid) :
    Parented after := by
  cases hstep with
  | same => exact h
  | born child hperm hnew hlive hidle hparent =>
      obtain ⟨old, hmem, hpid⟩ := hold child (hperm.mem_iff.mpr List.mem_cons_self)
      exact absurd hpid (hnew old hmem)
  | marked pid hchild hlive => exact h.mark pid true
  | reaped pid child hmem hparent hdead =>
      rw [List.filter_map]
      exact (h.reaped hordered hmem hdead).mark pid false

/-- The end of a task other than the first spoils the links of its children
exactly when the first task is not there to take them over. -/
theorem parented_exit_iff (h : Parented family) (pid ppid : Pid) :
    Parented (family.map (exit pid ppid)) ↔
      (pid ≠ initPid → HasChild family pid → Alive family initPid) := by
  constructor
  · rintro hafter hinit ⟨child, hmem, hchild⟩
    have hlink := hafter (exit pid ppid child) (List.mem_map_of_mem hmem)
    rw [ppid_exit, if_pos hchild, Kernel.heir, if_neg hinit] at hlink
    rcases hlink with hzero | hlive
    · cases hzero
    · exact (alive_exit_iff.mp hlive).1
  · intro hheir left hmem
    obtain ⟨child, hchild, rfl⟩ := List.mem_map.mp hmem
    rw [ppid_exit]
    split
    · rename_i horphan
      unfold Kernel.heir
      split
      · exact Or.inl rfl
      · rename_i hinit
        exact Or.inr (alive_exit_iff.mpr ⟨hheir hinit ⟨child, hchild, horphan⟩, Ne.symm hinit⟩)
    · rename_i hother
      exact (h child hchild).imp_right fun hlive => alive_exit_iff.mpr ⟨hlive, hother⟩

end Kernelet.Kin
