import Kernelet.Kernel.Lifecycle
import Kernelet.Proofs.Process.Table

/-!
Families of tasks, and who waits in them. A step of the kernel adds a task,
marks a parent as waiting, reaps a child, or ends a task (`Kin.exit`), and the
lemmas below say what each of these does to a wait. A wait is lost when the one
who waits could reap a child already: it will not be told again.

Only the end of a task can lose a wait, and only that of the heir, who is handed
children that have terminated without being told of them.
-/

namespace Kernelet

namespace Kin

/-- Some task of the family is a child of `pid`. -/
def HasChild (family : List Kin) (pid : Pid) : Prop :=
  ∃ child ∈ family, child.ppid = pid

/-- Some child of `pid` has terminated. -/
def Reapable (family : List Kin) (pid : Pid) : Prop :=
  ∃ child ∈ family, child.ppid = pid ∧ child.zombie = true

/-- Task `pid` lives and is marked as waiting for a child. -/
def Waits (family : List Kin) (pid : Pid) : Prop :=
  ∃ task ∈ family, task.pid = pid ∧ task.zombie = false ∧ task.waiting = true

/-- Task `pid` waits for what has already happened. -/
def Lost (family : List Kin) (pid : Pid) : Prop :=
  Waits family pid ∧ Reapable family pid

/-- A parent comes before its children, and 0 is no task. -/
structure Ordered (family : List Kin) : Prop where
  nodup : (family.map Kin.pid).Nodup
  ppid_lt : ∀ task ∈ family, task.ppid < task.pid

/-- The task with its mark set or cleared, if it is task `pid`. -/
def mark (pid : Pid) (waiting : Bool) (task : Kin) : Kin :=
  { task with waiting := if task.pid = pid then waiting else task.waiting }

/-- What the end of task `pid` with parent `ppid` makes of a task. -/
def exit (pid ppid : Pid) (task : Kin) : Kin where
  pid := task.pid
  ppid := if task.ppid = pid then Kernel.heir pid else task.ppid
  zombie := task.zombie || task.pid == pid
  waiting := if task.pid = pid ∨ task.pid = ppid then false else task.waiting

/-- The end of task `pid` with parent `ppid` leaves a child that has terminated
to the first task, which waits and is not told. -/
def Strands (family : List Kin) (pid ppid : Pid) : Prop :=
  pid ≠ initPid ∧ ppid ≠ initPid ∧ Reapable family pid ∧ Waits family initPid

/-- What a request that ends no task does to the family. -/
inductive Step (family : List Kin) : List Kin → Prop
  | same : Step family family
  | born (child : Kin) {after : List Kin} (hperm : after.Perm (child :: family))
      (hnew : ∀ task ∈ family, task.pid ≠ child.pid) (hlive : child.zombie = false)
      (hidle : child.waiting = false) (hparent : child.ppid < child.pid) : Step family after
  | marked (pid : Pid) (hchild : HasChild family pid) (hlive : ¬ Reapable family pid) :
      Step family (family.map (mark pid true))
  | reaped (pid : Pid) (child : Kin) (hmem : child ∈ family) (hparent : child.ppid = pid)
      (hdead : child.zombie = true) :
      Step family ((family.map (mark pid false)).filter fun task => task.pid != child.pid)

/-- A live task that does not wait joins the family, or nobody does. -/
inductive Grows (family : List Kin) : List Kin → Prop
  | same : Grows family family
  | born (child : Kin) {after : List Kin} (hperm : after.Perm (child :: family))
      (hnew : ∀ task ∈ family, task.pid ≠ child.pid) (hlive : child.zombie = false)
      (hidle : child.waiting = false) (hparent : child.ppid < child.pid) : Grows family after

variable {family after : List Kin} {pid ppid : Pid}

theorem Ordered.eq_of_pid_eq (h : Ordered family) {task other : Kin} (hmem : task ∈ family)
    (hother : other ∈ family) (hpid : other.pid = task.pid) : other = task :=
  List.inj_on_of_nodup_map h.nodup hother hmem hpid

theorem hasChild_mark {waiting : Bool} {q : Pid} :
    HasChild (family.map (mark pid waiting)) q ↔ HasChild family q := by
  simp [HasChild, mark]

theorem reapable_mark {waiting : Bool} {q : Pid} :
    Reapable (family.map (mark pid waiting)) q ↔ Reapable family q := by
  simp [Reapable, mark]

theorem Grows.step (h : Grows family after) : Step family after := by
  cases h with
  | same => exact Step.same
  | born child hperm hnew hlive hidle hparent =>
      exact Step.born child hperm hnew hlive hidle hparent

/-- Who is new does not wait. -/
theorem Grows.waits_iff (h : Grows family after) {q : Pid} : Waits after q ↔ Waits family q := by
  cases h with
  | same => exact Iff.rfl
  | born child hperm hnew hlive hidle hparent =>
      constructor
      · rintro ⟨task, hmem, hpid, halive, hmark⟩
        rcases List.mem_cons.mp (hperm.mem_iff.mp hmem) with rfl | hold
        · rw [hidle] at hmark
          cases hmark
        · exact ⟨task, hold, hpid, halive, hmark⟩
      · rintro ⟨task, hold, hwaits⟩
        exact ⟨task, hperm.mem_iff.mpr (List.mem_cons_of_mem _ hold), hwaits⟩

theorem waits_of_mark {waiting : Bool} {q : Pid} (hne : q ≠ pid)
    (h : Waits (family.map (mark pid waiting)) q) : Waits family q := by
  obtain ⟨marked, hmem, hpid, hlive, hwaits⟩ := h
  obtain ⟨task, htask, rfl⟩ := List.mem_map.mp hmem
  have hother : task.pid ≠ pid := by
    intro heq
    exact hne (hpid.symm.trans heq)
  simp only [mark, if_neg hother] at hwaits
  exact ⟨task, htask, hpid, hlive, hwaits⟩

/-- Whoever lives and is marked waits from then on. -/
theorem waits_mark_iff {q : Pid} :
    Waits (family.map (mark pid true)) q ↔
      Waits family q ∨ (q = pid ∧ ∃ task ∈ family, task.pid = q ∧ task.zombie = false) := by
  constructor
  · intro h
    by_cases hq : q = pid
    · obtain ⟨marked, hmem, hpid, hlive, -⟩ := h
      obtain ⟨task, htask, rfl⟩ := List.mem_map.mp hmem
      exact Or.inr ⟨hq, task, htask, hpid, hlive⟩
    · exact Or.inl (waits_of_mark hq h)
  · rintro (⟨task, hmem, hpid, hlive, hwaits⟩ | ⟨rfl, task, hmem, hpid, hlive⟩)
    · exact ⟨mark pid true task, List.mem_map_of_mem hmem, hpid, hlive, by simp [mark, hwaits]⟩
    · exact ⟨mark q true task, List.mem_map_of_mem hmem, hpid, hlive, by simp [mark, hpid]⟩

/-- When a child has been reaped its parent has stopped waiting. -/
theorem waits_of_reaped {child : Kin} {q : Pid}
    (h : Waits ((family.map (mark pid false)).filter fun task => task.pid != child.pid) q) :
    q ≠ pid ∧ Waits family q := by
  obtain ⟨marked, hmem, hpid, hlive, hwaits⟩ := h
  have hkept := (List.mem_filter.mp hmem).1
  have hne : q ≠ pid := by
    rintro rfl
    obtain ⟨task, -, rfl⟩ := List.mem_map.mp hkept
    have hself : task.pid = q := hpid
    simp [mark, hself] at hwaits
  exact ⟨hne, waits_of_mark hne ⟨marked, hkept, hpid, hlive, hwaits⟩⟩

/-- The child that is reaped did not wait any more, and nobody else is affected. -/
theorem waits_reaped_iff (hordered : Ordered family) {child : Kin} (hmem : child ∈ family)
    (hdead : child.zombie = true) {q : Pid} :
    Waits ((family.map (mark pid false)).filter fun task => task.pid != child.pid) q ↔
      q ≠ pid ∧ Waits family q := by
  refine ⟨waits_of_reaped, ?_⟩
  rintro ⟨hne, task, htask, rfl, hlive, hwaits⟩
  refine ⟨mark pid false task, ?_, rfl, hlive, ?_⟩
  · rw [List.mem_filter]
    refine ⟨List.mem_map_of_mem htask, ?_⟩
    rw [bne_iff_ne]
    intro hpid
    have hsame := hordered.eq_of_pid_eq hmem htask hpid
    rw [hsame, hdead] at hlive
    cases hlive
  · simp [mark, hne, hwaits]

theorem Ordered.step (h : Ordered family) (hstep : Step family after) : Ordered after := by
  cases hstep with
  | same => exact h
  | born child hperm hnew hlive hidle hparent =>
      constructor
      · rw [(hperm.map Kin.pid).nodup_iff, List.map_cons, List.nodup_cons]
        refine ⟨?_, h.nodup⟩
        intro hmem
        obtain ⟨task, htask, hpid⟩ := List.mem_map.mp hmem
        exact hnew task htask hpid
      · intro task hmem
        rcases List.mem_cons.mp (hperm.mem_iff.mp hmem) with rfl | hold
        · exact hparent
        · exact h.ppid_lt task hold
  | marked pid hchild hlive =>
      constructor
      · rw [List.map_map]
        exact h.nodup
      · intro task hmem
        obtain ⟨old, hold, rfl⟩ := List.mem_map.mp hmem
        exact h.ppid_lt old hold
  | reaped pid child hmem hparent hdead =>
      constructor
      · apply List.Nodup.sublist (List.filter_sublist.map _)
        rw [List.map_map]
        exact h.nodup
      · intro task htask
        obtain ⟨old, hold, rfl⟩ := List.mem_map.mp (List.mem_filter.mp htask).1
        exact h.ppid_lt old hold

/-- No task that waits is without a child. -/
def Attended (family : List Kin) : Prop :=
  ∀ pid, Waits family pid → HasChild family pid

theorem Attended.step (hordered : Ordered family) (h : Attended family)
    (hstep : Step family after) : Attended after := by
  intro q hwaits
  cases hstep with
  | same => exact h q hwaits
  | born child hperm hnew hlive hidle hparent =>
      obtain ⟨task, hmem, hpid, halive, hmark⟩ := hwaits
      rcases List.mem_cons.mp (hperm.mem_iff.mp hmem) with rfl | hold
      · rw [hidle] at hmark
        cases hmark
      · obtain ⟨other, hother, hppid⟩ := h q ⟨task, hold, hpid, halive, hmark⟩
        exact ⟨other, hperm.mem_iff.mpr (List.mem_cons_of_mem _ hother), hppid⟩
  | marked pid hchild hlive =>
      rw [hasChild_mark]
      by_cases hq : q = pid
      · rw [hq]
        exact hchild
      · exact h q (waits_of_mark hq hwaits)
  | reaped pid child hmem hparent hdead =>
      obtain ⟨hne, hbefore⟩ := waits_of_reaped hwaits
      obtain ⟨other, hother, hppid⟩ := h q hbefore
      refine ⟨mark pid false other, ?_, hppid⟩
      rw [List.mem_filter]
      refine ⟨List.mem_map_of_mem hother, ?_⟩
      rw [bne_iff_ne]
      -- The child that is reaped has another parent.
      intro hpid
      have hsame := hordered.eq_of_pid_eq hmem hother hpid
      rw [hsame, hparent] at hppid
      exact hne hppid.symm

/-- No wait is lost where nothing ends. -/
theorem lost_of_step {q : Pid} (hstep : Step family after) (h : Lost after q) :
    Lost family q := by
  obtain ⟨hwaits, hreap⟩ := h
  cases hstep with
  | same => exact ⟨hwaits, hreap⟩
  | born child hperm hnew hlive hidle hparent =>
      obtain ⟨task, hmem, hpid, halive, hmark⟩ := hwaits
      obtain ⟨other, hother, hppid, hgone⟩ := hreap
      constructor
      · rcases List.mem_cons.mp (hperm.mem_iff.mp hmem) with rfl | hold
        · rw [hidle] at hmark
          cases hmark
        · exact ⟨task, hold, hpid, halive, hmark⟩
      · rcases List.mem_cons.mp (hperm.mem_iff.mp hother) with rfl | hold
        · rw [hlive] at hgone
          cases hgone
        · exact ⟨other, hold, hppid, hgone⟩
  | marked pid hchild hlive =>
      rw [reapable_mark] at hreap
      have hne : q ≠ pid := by
        rintro rfl
        exact hlive hreap
      exact ⟨waits_of_mark hne hwaits, hreap⟩
  | reaped pid child hmem hparent hdead =>
      obtain ⟨other, hother, hppid, hgone⟩ := hreap
      have hmarked : Reapable (family.map (mark pid false)) q :=
        ⟨other, (List.mem_filter.mp hother).1, hppid, hgone⟩
      exact ⟨(waits_of_reaped hwaits).2, reapable_mark.mp hmarked⟩

section Exit

variable {ending : Kin}

theorem waits_exit_iff {q : Pid} :
    Waits (family.map (exit pid ppid)) q ↔ Waits family q ∧ q ≠ pid ∧ q ≠ ppid := by
  constructor
  · rintro ⟨left, hmem, rfl, hlive, hwaits⟩
    obtain ⟨task, htask, rfl⟩ := List.mem_map.mp hmem
    simp only [exit, Bool.or_eq_false_iff, beq_eq_false_iff_ne] at hlive
    simp only [exit] at hwaits ⊢
    split at hwaits
    · cases hwaits
    · rename_i hneither
      refine ⟨⟨task, htask, rfl, hlive.1, hwaits⟩, hlive.2, ?_⟩
      intro heq
      exact hneither (Or.inr heq)
  · rintro ⟨⟨task, htask, rfl, hlive, hwaits⟩, hpid, hppid⟩
    refine ⟨exit pid ppid task, List.mem_map_of_mem htask, rfl, ?_, ?_⟩
    · simp [exit, hlive, hpid]
    · simp [exit, hpid, hppid, hwaits]

/-- Who can be reaped by another than the parent of the task that ends. -/
theorem reapable_exit_iff (hordered : Ordered family) (hmem : ending ∈ family) {q : Pid}
    (hself : q ≠ ending.pid) (hparent : q ≠ ending.ppid) :
    Reapable (family.map (exit ending.pid ending.ppid)) q ↔
      Reapable family q ∨ (q = Kernel.heir ending.pid ∧ Reapable family ending.pid) := by
  have hlt := hordered.ppid_lt ending hmem
  constructor
  · rintro ⟨left, hleft, hppid, hgone⟩
    obtain ⟨task, htask, rfl⟩ := List.mem_map.mp hleft
    simp only [exit, Bool.or_eq_true, beq_iff_eq] at hppid hgone
    -- The task that ends goes to its own parent, who is told.
    have hother : task.pid ≠ ending.pid := by
      intro heq
      have hsame := hordered.eq_of_pid_eq hmem htask heq
      rw [hsame, if_neg (Nat.ne_of_lt hlt)] at hppid
      exact hparent hppid.symm
    have hdead := hgone.resolve_right hother
    split at hppid
    · rename_i horphan
      exact Or.inr ⟨hppid.symm, task, htask, horphan, hdead⟩
    · exact Or.inl ⟨task, htask, hppid, hdead⟩
  · rintro (⟨task, htask, hppid, hdead⟩ | ⟨rfl, task, htask, hppid, hdead⟩)
    · refine ⟨exit ending.pid ending.ppid task, List.mem_map_of_mem htask, ?_, ?_⟩
      · simp [exit, hppid, hself]
      · simp [exit, hdead]
    · refine ⟨exit ending.pid ending.ppid task, List.mem_map_of_mem htask, ?_, ?_⟩
      · simp [exit, hppid]
      · simp [exit, hdead]

theorem pos_of_waits (hordered : Ordered family) {q : Pid} (h : Waits family q) : 0 < q := by
  obtain ⟨task, hmem, rfl, -⟩ := h
  exact Nat.lt_of_le_of_lt (Nat.zero_le _) (hordered.ppid_lt task hmem)

/-- The end of a task loses a wait exactly when it strands the first task. -/
theorem lost_exit_iff (hordered : Ordered family) (hmem : ending ∈ family) {q : Pid} :
    Lost (family.map (exit ending.pid ending.ppid)) q ↔
      (Lost family q ∧ q ≠ ending.pid ∧ q ≠ ending.ppid) ∨
        (q = initPid ∧ Strands family ending.pid ending.ppid) := by
  unfold Lost
  rw [waits_exit_iff]
  constructor
  · rintro ⟨⟨hwaits, hself, hparent⟩, hreap⟩
    rcases (reapable_exit_iff hordered hmem hself hparent).mp hreap with hold | ⟨hheir, hold⟩
    · exact Or.inl ⟨⟨hwaits, hold⟩, hself, hparent⟩
    · right
      have hpos := pos_of_waits hordered hwaits
      unfold Kernel.heir at hheir
      split at hheir
      · exact absurd hheir (Nat.ne_of_gt hpos)
      · rename_i hinit
        subst hheir
        exact ⟨rfl, hinit, Ne.symm hparent, hold, hwaits⟩
  · rintro (⟨⟨hwaits, hreap⟩, hself, hparent⟩ | ⟨rfl, hinit, hparent, hreap, hwaits⟩)
    · refine ⟨⟨hwaits, hself, hparent⟩, ?_⟩
      exact (reapable_exit_iff hordered hmem hself hparent).mpr (Or.inl hreap)
    · refine ⟨⟨hwaits, Ne.symm hinit, Ne.symm hparent⟩, ?_⟩
      apply (reapable_exit_iff hordered hmem (Ne.symm hinit) (Ne.symm hparent)).mpr
      refine Or.inr ⟨?_, hreap⟩
      unfold Kernel.heir
      rw [if_neg hinit]

theorem Attended.exit (h : Attended family) (pid ppid : Pid) :
    Attended (family.map (exit pid ppid)) := by
  intro q hwaits
  obtain ⟨hbefore, hself, -⟩ := waits_exit_iff.mp hwaits
  obtain ⟨child, hmem, hppid⟩ := h q hbefore
  refine ⟨Kin.exit pid ppid child, List.mem_map_of_mem hmem, ?_⟩
  simp [Kin.exit, hppid, hself]

theorem heir_le (hpos : 0 < pid) : Kernel.heir pid ≤ pid := by
  unfold Kernel.heir
  split
  · exact Nat.zero_le pid
  · exact hpos

theorem Ordered.exit (h : Ordered family) (hmem : ending ∈ family) (ppid : Pid) :
    Ordered (family.map (exit ending.pid ppid)) where
  nodup := by
    rw [List.map_map]
    exact h.nodup
  ppid_lt := by
    intro left hleft
    obtain ⟨task, htask, rfl⟩ := List.mem_map.mp hleft
    have hlt := h.ppid_lt task htask
    simp only [Kin.exit]
    split
    · rename_i horphan
      have hpos := Nat.lt_of_le_of_lt (Nat.zero_le _) (h.ppid_lt ending hmem)
      exact Nat.lt_of_le_of_lt (heir_le hpos) (horphan ▸ hlt)
    · exact hlt

end Exit

end Kin

end Kernelet
