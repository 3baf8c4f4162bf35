import Kernelet.Proofs.Memory.ByteAccess
import Kernelet.Proofs.Spaces.Accounting

/-!
When a byte can be read and written, whatever became of the spaces before. The pool
decides by its counts whether a page that is to be written needs a copy. As its accounts
are exact (`Accounted`), it makes one exactly if another living space maps the same frame
(`refCount_eq_one_iff`).
-/

namespace Kernelet.Spaces

/-- A living space other than `i` maps frame `f`. -/
def Shares (s : Spaces) (i : Nat) (f : FrameId) : Prop :=
  ∃ j p entry, j ≠ i ∧ s.Maps j p entry ∧ entry.frame = f

/-- The page of `a` in space `i` has to be copied before it is written. -/
def NeedsCopy (s : Spaces) (i : Nat) (a : VirtAddr) : Prop :=
  ∃ entry, s.Maps i a.page entry ∧ entry.flags.copyOnWrite = true ∧ s.Shares i entry.frame

/-- What comes of reading the byte at `a` in space `i`. -/
structure Reads (s : Spaces) (i : Nat) (a : VirtAddr) (result : Except KernelError Reply) :
    Prop where
  pageFault_iff : result = .error (.pageFault a) ↔ ¬ ∃ entry, s.Maps i a.page entry
  answers : result = .error (.pageFault a) ∨ ∃ byte, result = .ok (.access (.byte byte))

/-- What comes of writing a byte at `a` in space `i`. -/
structure Writes (s : Spaces) (i : Nat) (a : VirtAddr) (run : Outcome Spaces Reply) : Prop where
  pageFault_iff : run.result = .error (.pageFault a) ↔ ¬ ∃ entry, s.Maps i a.page entry
  permissionFault_iff : run.result = .error (.permissionFault a) ↔
    ∃ entry, s.Maps i a.page entry ∧ entry.flags.writable = false ∧
      entry.flags.copyOnWrite = false
  outOfMemory_iff : run.result = .error .outOfMemory ↔ s.NeedsCopy i a ∧ s.pool.freeCount = 0
  answers : run.result = .error (.pageFault a) ∨ run.result = .error (.permissionFault a) ∨
    run.result = .error .outOfMemory ∨ run.result = .ok (.access .done)
  /-- A write that fails changes nothing. -/
  failed : ∀ e, run.result = .error e → run.state = s
  /-- The copy goes into a frame that was free. -/
  copied : run.result = .ok (.access .done) → s.NeedsCopy i a →
    run.state.pool.freeCount + 1 = s.pool.freeCount ∧
      ∃ entry, run.state.Maps i a.page entry ∧ s.pool.refCount entry.frame = 0
  /-- Without a copy the page keeps its frame, and no frame is taken. -/
  kept : run.result = .ok (.access .done) → ¬ s.NeedsCopy i a →
    run.state.pool.freeCount = s.pool.freeCount ∧
      ∃ entry after, s.Maps i a.page entry ∧ run.state.Maps i a.page after ∧
        after.frame = entry.frame
  /-- A page that is shared no more becomes writable where it is, even if no frame is
  free. -/
  promoted : ∀ entry, s.Maps i a.page entry → entry.flags.copyOnWrite = true →
    ¬ s.Shares i entry.frame →
      run.result = .ok (.access .done) ∧ run.state.pool.freeCount = s.pool.freeCount ∧
        run.state.Maps i a.page ⟨entry.frame, entry.flags.owned.normalized⟩

variable {total reserved : Nat} {s : Spaces} {i p : Nat} {entry other : PageEntry}
  {a : VirtAddr} {space : AddressSpace}

theorem maps_iff (h : s.space? i = some space) :
    s.Maps i p entry ↔ space.table.lookup p = some entry := by
  constructor
  · rintro ⟨found, hfound, hlookup⟩
    cases h.symm.trans hfound
    exact hlookup
  · intro hlookup
    exact ⟨space, h, hlookup⟩

theorem Maps.iff_eq (h : s.Maps i p entry) : s.Maps i p other ↔ other = entry := by
  obtain ⟨space, hspace, hlookup⟩ := h
  rw [maps_iff hspace, hlookup, Option.some_inj, eq_comm]

/-- A frame has a single reference if and only if no other space maps it. -/
theorem Accounted.refCount_eq_one_iff (h : s.Accounted total reserved)
    (hmaps : s.Maps i p entry) :
    s.pool.refCount entry.frame = 1 ↔ ¬ s.Shares i entry.frame := by
  have hplace : (i, p) ∈ s.placesOf entry.frame := ⟨entry, hmaps, rfl⟩
  have hlow := (h.frame_mem i p entry hmaps).1
  rw [h.refCount_eq, if_neg (Nat.not_lt_of_le hlow), Set.ncard_eq_one]
  constructor
  · rintro ⟨place, hsingle⟩ ⟨j, q, other, hne, hother, hframe⟩
    have hrival : (j, q) ∈ s.placesOf entry.frame := ⟨other, hother, hframe⟩
    rw [hsingle, Set.mem_singleton_iff] at hplace hrival
    cases hplace.trans hrival.symm
    exact hne rfl
  · intro halone
    refine ⟨(i, p), Set.eq_singleton_iff_unique_mem.mpr ⟨hplace, ?_⟩⟩
    rintro ⟨j, q⟩ ⟨other, hother, hframe⟩
    by_cases hij : j = i
    · subst hij
      rw [h.page_unique j q p other entry hother hmaps hframe]
    · exact absurd ⟨j, q, other, hij, hother, hframe⟩ halone

theorem space?_put (hi : i < s.slots.length) (m : Memory) :
    (s.put i m).space? i = some m.space := by
  simp [space?, put, hi]

theorem put_self (h : s.space? i = some space) : s.put i ⟨space, s.pool⟩ = s := by
  unfold put
  rw [set_of_space? h]

theorem serve_access (h : s.space? i = some space) (request : Memory.Request) :
    s.serve (.access i request) =
      ⟨((Memory.mk space s.pool).serve request).result.map .access,
        s.put i ((Memory.mk space s.pool).serve request).state⟩ := by
  show s.access i request = _
  unfold access
  rw [h]

theorem reads (h : Fits total reserved s) (hspace : s.space? i = some space) (a : VirtAddr) :
    s.Reads i a (s.serve (.access i (.readByte a))).result := by
  have hread := Memory.readByte_eq (h.focus hspace) a
  rw [serve_access hspace]
  dsimp only [Memory.serve]
  rw [hread, PageTable.page?]
  cases hlookup : space.table.lookup a.page with
  | none => exact ⟨by simp [Except.map, maps_iff hspace, hlookup], Or.inl rfl⟩
  | some entry => exact ⟨by simp [Except.map, maps_iff hspace, hlookup], Or.inr ⟨_, rfl⟩⟩

theorem writes (h : Fits total reserved s) (hspace : s.space? i = some space) (a : VirtAddr)
    (byte : UInt8) : s.Writes i a (s.serve (.access i (.writeByte a byte))) := by
  have hcase := Memory.writeByte_case (h.focus hspace) a byte
  have hself := put_self hspace
  have hnow : ∀ entry, space.table.lookup a.page = some entry → s.Maps i a.page entry :=
    fun _ hpage => (maps_iff hspace).mpr hpage
  have hlater : ∀ (m : Memory) entry, m.space.table.lookup a.page = some entry →
      (s.put i m).Maps i a.page entry :=
    fun m _ hpage => (maps_iff (space?_put (lt_length_of_space? hspace) m)).mpr hpage
  have halone : ∀ entry, s.Maps i a.page entry →
      (s.pool.refCount entry.frame = 1 ↔ ¬ s.Shares i entry.frame) :=
    fun _ hmaps => h.accounted.refCount_eq_one_iff hmaps
  rw [serve_access hspace]
  dsimp only [Memory.serve, Outcome.map]
  generalize (Memory.mk space s.pool).writeByte a byte = run at hcase ⊢
  -- In each case it is settled which entry the page has, and whether it needs a copy.
  cases hcase with
  | unmapped hpage =>
      have hnone : ∀ entry, ¬ s.Maps i a.page entry := by simp [maps_iff hspace, hpage]
      constructor <;> simp [Except.map, NeedsCopy, hnone, hself]
  | @readOnly entry hpage hwritable hcow =>
      have hmaps := hnow entry hpage
      constructor <;> simp [Except.map, NeedsCopy, hmaps.iff_eq, hwritable, hcow, hself]
  | @direct entry after hpage hwritable hcow hafter hcount =>
      have hmaps := hnow entry hpage
      have hthen := hlater after entry hafter
      constructor <;> simp [Except.map, NeedsCopy, hmaps.iff_eq, hthen.iff_eq, hwritable, hcow]
      case kept => exact hcount
  | @promoted entry after hpage hcow hone hafter hcount =>
      have hmaps := hnow entry hpage
      have hthen := hlater after _ hafter
      have hsole := (halone entry hmaps).mp hone
      constructor <;> simp [Except.map, NeedsCopy, hmaps.iff_eq, hthen.iff_eq, hcow, hsole]
      case kept => exact hcount
      case promoted => exact hcount
  | @full entry hpage hcow hmany hfull =>
      have hmaps := hnow entry hpage
      have hrival := not_not.mp (mt (halone entry hmaps).mpr hmany)
      constructor <;> simp [Except.map, NeedsCopy, hmaps.iff_eq, hcow, hrival, hself]
      case outOfMemory_iff => exact hfull
  | @copied entry after copy hpage hcow hmany hafter hfree hcount =>
      have hmaps := hnow entry hpage
      have hthen := hlater after _ hafter
      have hrival := not_not.mp (mt (halone entry hmaps).mpr hmany)
      have hsome : s.pool.freeCount ≠ 0 := by
        rw [← hcount]
        exact Nat.succ_ne_zero _
      constructor <;> simp [Except.map, NeedsCopy, hmaps.iff_eq, hthen.iff_eq, hcow, hrival, hsome]
      case copied => exact ⟨hcount, hfree⟩

/-- After any history, of all that an access to a byte can come to, it comes to what the
page and the sharing of its frame call for. -/
theorem byteAccess_serveAll (total reserved : Nat) (requests : List Request) {i : Nat}
    {space : AddressSpace} (a : VirtAddr) (byte : UInt8)
    (hspace : ((boot total reserved).serveAll requests).2.space? i = some space) :
    let s := ((boot total reserved).serveAll requests).2
    s.Reads i a (s.serve (.access i (.readByte a))).result ∧
      s.Writes i a (s.serve (.access i (.writeByte a byte))) := by
  intro s
  have hfits := serveAll_fits (boot_fits total reserved) requests
  exact ⟨reads hfits hspace a, writes hfits hspace a byte⟩

/-- The last request meets what all others have left. -/
theorem serveAll_concat (s : Spaces) (requests : List Request) (request : Request) :
    (s.serveAll (requests ++ [request])).2 = ((s.serveAll requests).2.serve request).state := by
  induction requests generalizing s with
  | nil => rfl
  | cons first rest ih => exact ih (s.serve first).state

/-- A child over a pool whose only frame it shares with its parent. -/
theorem byteAccess_after_fork :
    let s := ((boot 2 1).serveAll [.create 8192,
      .access 0 (.map (VirtAddr.ofPage 0) .userData), .fork 0]).2
    let a := VirtAddr.ofPage 0
    (∃ space, s.space? 1 = some space) ∧ s.Reads 1 a (s.serve (.access 1 (.readByte a))).result ∧
      s.Writes 1 a (s.serve (.access 1 (.writeByte a 7))) := by
  intro s a
  let requests : List Request := [.create 8192, .access 0 (.map a .userData)]
  have hparent : ∃ space, ((boot 2 1).serveAll requests).2.space? 0 = some space := ⟨_, rfl⟩
  obtain ⟨space, hspace⟩ := hparent
  obtain ⟨child, after, hrun, -⟩ :=
    Memory.fork_eq ((serveAll_fits (boot_fits 2 1) requests).focus hspace)
  have hfork : s = (((boot 2 1).serveAll requests).2.serve (.fork 0)).state :=
    serveAll_concat (boot 2 1) requests (.fork 0)
  have hchild : s.space? 1 = some child := by
    rw [hfork, serve, fork_of_ok hspace hrun]
    rfl
  exact ⟨⟨child, hchild⟩, byteAccess_serveAll 2 1 _ a 7 hchild⟩

end Kernelet.Spaces
