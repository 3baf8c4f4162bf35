import Kernelet.Memory.Fork
import Kernelet.Memory.Request
import Kernelet.Proofs.Memory.PageUpdates

/-!
Two runs side by side. Two pools are alike if their books are the same and some
frames, those that are shown, hold the same bytes; of the others nothing is asked.
The books alone decide which frame is handed out and whether a page has to be copied,
so that operations on pools that are alike go the same way in both and leave pools
that are alike.

A frame that is handed out is shown whatever it held, because it is zeroed, and a
copy is shown if its source is (`Alike.allocate`, `Alike.copyFrame`). For the
operations of an address space it follows that the space shows no more than it did
(`Memory.serve_alike`).
-/

namespace Kernelet

/-- Tables that name the same frames for the same pages show the same pages if the
frames hold the same. -/
theorem PageTable.page?_eq_iff {table : PageTable} {pool next : FramePool} :
    (∀ p, table.page? next p = table.page? pool p) ↔
      ∀ f ∈ table.frames, next.bytesOf f = pool.bytesOf f := by
  constructor
  · intro hpages f hf
    obtain ⟨p, entry, hlookup, rfl⟩ := mem_frames.mp hf
    have hpage := hpages p
    unfold page? at hpage
    rw [hlookup, Option.map_some, Option.map_some, Option.some_inj, Page.mk.injEq] at hpage
    exact hpage.1
  · intro hbytes p
    unfold page?
    cases hlookup : table.lookup p with
    | none => rw [Option.map_none, Option.map_none]
    | some entry =>
        rw [Option.map_some, Option.map_some, hbytes entry.frame (frame_mem_frames hlookup)]

theorem PageTable.mem_frames_of_map {table after : PageTable} {p : Nat} {frame f : FrameId}
    {flags : PageFlags} (h : table.map p frame flags = .ok after) (hf : f ∈ after.frames) :
    frame = f ∨ f ∈ table.frames := by
  obtain ⟨q, entry, hlookup, rfl⟩ := mem_frames.mp hf
  rw [lookup_map h] at hlookup
  split at hlookup
  · cases hlookup
    exact Or.inl rfl
  · exact Or.inr (frame_mem_frames hlookup)

theorem PageTable.mem_frames_of_setFlags {table : PageTable} {p : Nat} {flags : PageFlags}
    {f : FrameId} (hf : f ∈ (table.setFlags p flags).2.frames) : f ∈ table.frames := by
  obtain ⟨q, entry, hlookup, rfl⟩ := mem_frames.mp hf
  rw [lookup_setFlags] at hlookup
  split at hlookup
  · obtain ⟨old, hold, rfl⟩ := Option.map_eq_some_iff.mp hlookup
    exact mem_frames.mpr ⟨p, old, hold, rfl⟩
  · exact frame_mem_frames hlookup

namespace FramePool

/-- The same books, and the same bytes in the frames that are shown. -/
structure Alike (shown : FrameId → Prop) (pool other : FramePool) : Prop where
  total_eq : other.total = pool.total
  freeCount_eq : other.freeCount = pool.freeCount
  refCount_eq : ∀ f, other.refCount f = pool.refCount f
  bytes_eq : ∀ f, shown f → other.bytesOf f = pool.bytesOf f

namespace Alike

variable {shown fewer : FrameId → Prop} {pool other after : FramePool} {f : FrameId}

theorem refl (pool : FramePool) : pool.Alike shown pool where
  total_eq := rfl
  freeCount_eq := rfl
  refCount_eq := fun _ => rfl
  bytes_eq := fun _ _ => rfl

theorem mono (h : pool.Alike shown other) (hfewer : ∀ f, fewer f → shown f) :
    pool.Alike fewer other where
  total_eq := h.total_eq
  freeCount_eq := h.freeCount_eq
  refCount_eq := h.refCount_eq
  bytes_eq := fun f hf => h.bytes_eq f (hfewer f hf)

theorem inRange_eq (h : pool.Alike shown other) (a : PhysAddr) (length : Nat) :
    other.inRange a length = pool.inRange a length := by
  unfold inRange byteSize
  rw [h.total_eq]

theorem byteAt_eq (h : pool.Alike shown other) {a : PhysAddr} (ha : shown a.frame) :
    other.byteAt a = pool.byteAt a := by
  have hbyte : ∀ p : FramePool, p.byteAt a = (p.bytesOf a.frame)[a.offset] := by
    intro p
    have haddress : (FrameId.base a.frame).add a.offset = a :=
      PhysAddr.ext_frame_offset (frame_add_base _ _) (offset_add_base _ _)
    rw [Fin.getElem_fin, getElem_bytesOf, haddress]
  rw [hbyte, hbyte, h.bytes_eq a.frame ha]

/-! ### Handing out, sharing and giving back -/

theorem allocate_error {e : KernelError} (h : pool.Alike shown other)
    (hrun : pool.allocate = .error e) : other.allocate = .error e := by
  obtain ⟨rfl, hbusy⟩ := allocate_eq_error_iff.mp hrun
  refine allocate_eq_error_iff.mpr ⟨rfl, ?_⟩
  intro f hf
  rw [h.refCount_eq]
  exact hbusy f (h.total_eq ▸ hf)

/-- The same frame is handed out, and it is zeroed in both. -/
theorem allocate (h : pool.Alike shown other) (hrun : pool.allocate = .ok (f, after)) :
    ∃ next, other.allocate = .ok (f, next) ∧ after.Alike (fun g => f = g ∨ shown g) next := by
  obtain ⟨hlt, hfree, hbelow⟩ := first_free_of_allocate hrun
  cases hother : other.allocate with
  | error e =>
      have hbusy := (allocate_eq_error_iff.mp hother).2 f (h.total_eq ▸ hlt)
      rw [h.refCount_eq] at hbusy
      exact absurd hfree hbusy
  | ok handed =>
      obtain ⟨g, next⟩ := handed
      obtain ⟨-, hfree', hbelow'⟩ := first_free_of_allocate hother
      rw [h.refCount_eq] at hfree'
      have hsame : g = f := by
        rcases Nat.lt_trichotomy g f with hlow | hsame | hhigh
        · exact absurd hfree' (hbelow g hlow)
        · exact hsame
        · have hbusy := hbelow' f hhigh
          rw [h.refCount_eq] at hbusy
          exact absurd hfree hbusy
      subst hsame
      refine ⟨next, rfl, ?_, ?_, ?_, ?_⟩
      · rw [total_allocate hother, total_allocate hrun, h.total_eq]
      · rw [freeCount_allocate hother, freeCount_allocate hrun, h.freeCount_eq]
      · intro q
        rw [refCount_allocate hother, refCount_allocate hrun, h.refCount_eq]
      · intro q hq
        rw [bytesOf_allocate hother, bytesOf_allocate hrun]
        rcases hq with hself | hshown
        · rw [if_pos hself, if_pos hself]
        · rw [h.bytes_eq q hshown]

theorem share_error {e : KernelError} (h : pool.Alike shown other)
    (hrun : pool.share f = .error e) : other.share f = .error e := by
  obtain ⟨he, hfree⟩ := share_eq_error_iff.mp hrun
  exact share_eq_error_iff.mpr ⟨he, (h.refCount_eq f).trans hfree⟩

theorem share (h : pool.Alike shown other) (hrun : pool.share f = .ok after) :
    ∃ next, other.share f = .ok next ∧ after.Alike shown next := by
  cases hother : other.share f with
  | error e =>
      obtain ⟨he, hfree⟩ := share_eq_error_iff.mp hother
      rw [share_eq_error_iff.mpr ⟨he, (h.refCount_eq f).symm.trans hfree⟩] at hrun
      cases hrun
  | ok next =>
      refine ⟨next, rfl, ?_, ?_, ?_, ?_⟩
      · rw [total_share hother, total_share hrun, h.total_eq]
      · rw [freeCount_share hother, freeCount_share hrun, h.freeCount_eq]
      · intro q
        rw [refCount_share hother, refCount_share hrun, h.refCount_eq]
      · intro q hq
        rw [bytesOf_share hother, bytesOf_share hrun, h.bytes_eq q hq]

theorem free (h : pool.Alike shown other) (f : FrameId) :
    (pool.free f).Alike shown (other.free f) where
  total_eq := by
    rw [total_free, total_free, h.total_eq]
  freeCount_eq := by
    rw [freeCount_free, freeCount_free, h.refCount_eq, h.freeCount_eq]
  refCount_eq := by
    intro q
    rw [refCount_free, refCount_free, h.refCount_eq]
  bytes_eq := by
    intro q hq
    rw [bytesOf_free, bytesOf_free, h.bytes_eq q hq]

theorem freeAll (h : pool.Alike shown other) (gone : List FrameId) :
    (pool.freeAll gone).Alike shown (other.freeAll gone) := by
  induction gone generalizing pool other with
  | nil => exact h
  | cons f rest ih => exact ih (h.free f)

/-! ### Bytes -/

theorem copyFrame_error {source target : FrameId} {e : KernelError}
    (h : pool.Alike shown other) (hrun : pool.copyFrame source target = .error e) :
    other.copyFrame source target = .error e := by
  by_cases hboth : source < pool.total ∧ target < pool.total
  · obtain ⟨after, hafter⟩ := exists_copyFrame hboth.1 hboth.2
    rw [hafter] at hrun
    cases hrun
  · unfold FramePool.copyFrame at hrun ⊢
    rw [h.inRange_eq, h.inRange_eq]
    split at hrun
    · rename_i hsource
      have htarget : ¬ pool.inRange target.base pageSize = true := by
        intro htarget
        exact hboth ⟨(inRange_base_iff pool source).mp hsource,
          (inRange_base_iff pool target).mp htarget⟩
      rw [if_neg htarget] at hrun
      rw [if_pos hsource, if_neg htarget]
      exact hrun
    · rename_i hsource
      rw [if_neg hsource]
      exact hrun

/-- A copy shows what its source shows. -/
theorem copyFrame {source target : FrameId} (h : pool.Alike shown other)
    (hrun : pool.copyFrame source target = .ok after) :
    ∃ next, other.copyFrame source target = .ok next ∧
      after.Alike (fun g => if target = g then shown source else shown g) next := by
  obtain ⟨htarget, frame, hframe, -⟩ := copyFrame_eq_ok hrun
  obtain ⟨hsource, -⟩ := Array.getElem?_eq_some_iff.mp hframe
  have hsource : source < other.total := h.total_eq ▸ hsource
  obtain ⟨next, hnext⟩ := exists_copyFrame hsource (h.total_eq ▸ htarget)
  refine ⟨next, hnext, ?_, ?_, ?_, ?_⟩
  · rw [total_copyFrame hnext, total_copyFrame hrun, h.total_eq]
  · rw [freeCount_copyFrame hnext, freeCount_copyFrame hrun, h.freeCount_eq]
  · intro q
    rw [refCount_copyFrame hnext, refCount_copyFrame hrun, h.refCount_eq]
  · intro q hq
    rw [bytesOf_copyFrame hnext, bytesOf_copyFrame hrun]
    split at hq
    · rename_i hself
      rw [if_pos hself, if_pos hself, h.bytes_eq source hq]
    · rename_i hne
      rw [if_neg hne, if_neg hne, h.bytes_eq q hq]

/-- Different bytes may be written to a frame that is not shown. -/
theorem setByte (h : pool.Alike shown other) (a : PhysAddr) {byte counterpart : UInt8}
    (hbyte : shown a.frame → counterpart = byte) :
    (pool.setByte a byte).Alike shown (other.setByte a counterpart) where
  total_eq := by
    rw [total_setByte, total_setByte, h.total_eq]
  freeCount_eq := h.freeCount_eq
  refCount_eq := by
    intro q
    rw [refCount_setByte, refCount_setByte, h.refCount_eq]
  bytes_eq := by
    intro q hq
    apply bytesOf_ext
    intro i
    have hframe := frame_add_base q i
    rw [byteAt_setByte, byteAt_setByte, h.total_eq, h.byteAt_eq (hframe.symm ▸ hq)]
    split
    · rename_i hself
      apply hbyte
      rw [hself.1, hframe]
      exact hq
    · rfl

end Alike

end FramePool

namespace Memory

/-- The same address space over pools that are alike, in which the frames of the
space are shown if the space is `clear`. -/
structure Alike (clear : Prop) (m other : Memory) : Prop where
  space_eq : other.space = m.space
  pool : m.pool.Alike (fun f => clear ∧ f ∈ m.space.table.frames) other.pool

/-- The same result, over memories that are alike. -/
structure SameOutcome {α : Type} (clear : Prop) (o other : Outcome Memory α) : Prop where
  result_eq : other.result = o.result
  state : Alike clear o.state other.state

variable {clear : Prop} {m other : Memory}

theorem SameOutcome.cases {α : Type} {o p : Outcome Memory α} (h : SameOutcome clear o p) :
    ∃ result after next, o = ⟨result, after⟩ ∧ p = ⟨result, next⟩ ∧ Alike clear after next := by
  obtain ⟨result, after⟩ := o
  obtain ⟨result', next⟩ := p
  have hresult : result' = result := h.result_eq
  exact ⟨result, after, next, rfl, by rw [hresult], h.state⟩

theorem SameOutcome.map {α β : Type} {o p : Outcome Memory α} (h : SameOutcome clear o p)
    (g : α → β) : SameOutcome clear (o.map g) (p.map g) where
  result_eq := congrArg (Except.map g) h.result_eq
  state := h.state

theorem mapPage_alike (h : Alike clear m other) (a : VirtAddr) (flags : PageFlags) :
    SameOutcome clear (m.mapPage a flags) (other.mapPage a flags) := by
  unfold mapPage
  rw [h.space_eq]
  split
  · exact ⟨rfl, h⟩
  · split
    · cases hrun : m.pool.allocate with
      | error e =>
          rw [h.pool.allocate_error hrun]
          exact ⟨rfl, h⟩
      | ok handed =>
          obtain ⟨frame, after⟩ := handed
          obtain ⟨next, hnext, halike⟩ := h.pool.allocate hrun
          rw [hnext]
          dsimp only
          cases hmap : m.space.table.map a.page frame flags with
          | error e => exact ⟨rfl, rfl, halike.mono fun f => Or.inr⟩
          | ok table =>
              refine ⟨rfl, rfl, halike.mono ?_⟩
              rintro f ⟨hclear, hf⟩
              rcases PageTable.mem_frames_of_map hmap hf with hself | hold
              · exact Or.inl hself
              · exact Or.inr ⟨hclear, hold⟩
    · exact ⟨rfl, h⟩

theorem growPages_alike (h : Alike clear m other) (first count : Nat) :
    (other.growPages first count).1 = (m.growPages first count).1 ∧
      Alike clear (m.growPages first count).2 (other.growPages first count).2 := by
  induction count generalizing m other first with
  | zero => exact ⟨rfl, h⟩
  | succ count ih =>
      unfold growPages
      obtain ⟨result, after, next, hrun, hnext, halike⟩ :=
        (mapPage_alike h (VirtAddr.ofPage first) .userData).cases
      rw [hrun, hnext]
      cases result with
      | error e => exact ⟨rfl, halike⟩
      | ok done => exact ih halike (first + 1)

theorem expandBrk_alike (h : Alike clear m other) (newBrk : VirtAddr) :
    (other.expandBrk newBrk).1 = (m.expandBrk newBrk).1 ∧
      Alike clear (m.expandBrk newBrk).2 (other.expandBrk newBrk).2 := by
  unfold expandBrk
  rw [h.space_eq]
  dsimp only
  split
  · exact ⟨rfl, h⟩
  · split
    · exact ⟨rfl, h⟩
    · rename_i target _
      split
      · exact ⟨rfl, h⟩
      · obtain ⟨hstop, halike⟩ := growPages_alike h (m.space.brk / pageSize)
          (target.page - m.space.brk / pageSize)
        rcases hrun : m.growPages (m.space.brk / pageSize)
          (target.page - m.space.brk / pageSize) with ⟨stop, after⟩
        rcases hnext : other.growPages (m.space.brk / pageSize)
          (target.page - m.space.brk / pageSize) with ⟨stop', next⟩
        rw [hrun, hnext] at hstop halike
        cases hstop
        cases stop with
        | none =>
            have hspace := congrArg (fun s => { s with brk := target.toNat }) halike.space_eq
            exact ⟨rfl, hspace, halike.pool⟩
        | some stopped =>
            have hspace :=
              congrArg (fun s => { s with brk := max m.space.brk stopped }) halike.space_eq
            exact ⟨rfl, hspace, halike.pool⟩

theorem makePrivate_alike (h : Alike clear m other) {p : Nat} {entry : PageEntry}
    (hlookup : m.space.table.lookup p = some entry) :
    SameOutcome clear (m.makePrivate p entry) (other.makePrivate p entry) := by
  have hsource := PageTable.frame_mem_frames hlookup
  unfold makePrivate
  rw [h.space_eq, h.pool.refCount_eq]
  split
  · refine ⟨rfl, rfl, h.pool.mono ?_⟩
    rintro f ⟨hclear, hf⟩
    exact ⟨hclear, PageTable.mem_frames_of_setFlags hf⟩
  · cases hrun : m.pool.allocate with
    | error e =>
        rw [h.pool.allocate_error hrun]
        exact ⟨rfl, h⟩
    | ok handed =>
        obtain ⟨frame, after⟩ := handed
        obtain ⟨next, hnext, halike⟩ := h.pool.allocate hrun
        rw [hnext]
        dsimp only
        cases hcopy : after.copyFrame entry.frame frame with
        | error e =>
            rw [halike.copyFrame_error hcopy]
            exact ⟨rfl, rfl, (halike.free frame).mono fun f => Or.inr⟩
        | ok copied =>
            obtain ⟨copy, hcopied, hboth⟩ := halike.copyFrame hcopy
            rw [hcopied]
            dsimp only
            -- The copy is as clear as the space, and so is every frame it had.
            have hshown : ∀ f, clear ∧ (frame = f ∨ f ∈ m.space.table.frames) →
                if frame = f then frame = entry.frame ∨ clear ∧ entry.frame ∈ m.space.table.frames
                else frame = f ∨ clear ∧ f ∈ m.space.table.frames := by
              rintro f ⟨hclear, hf⟩
              split
              · exact Or.inr ⟨hclear, hsource⟩
              · rename_i hne
                exact Or.inr ⟨hclear, hf.resolve_left hne⟩
            cases hmap : m.space.table.map p frame entry.flags.owned with
            | error e =>
                refine ⟨rfl, rfl, (hboth.free entry.frame).mono ?_⟩
                rintro f ⟨hclear, hf⟩
                exact hshown f ⟨hclear, Or.inr hf⟩
            | ok table =>
                refine ⟨rfl, rfl, (hboth.free entry.frame).mono ?_⟩
                rintro f ⟨hclear, hf⟩
                exact hshown f ⟨hclear, PageTable.mem_frames_of_map hmap hf⟩

/-- Different bytes may be stored in a space that is not clear. -/
theorem storeByte_alike (h : Alike clear m other) (a : VirtAddr) {byte counterpart : UInt8}
    (hbyte : clear → counterpart = byte) :
    SameOutcome clear (m.storeByte a byte) (other.storeByte a counterpart) := by
  unfold storeByte FramePool.writeByte
  rw [h.space_eq]
  cases m.space.table.translate a with
  | none => exact ⟨rfl, h⟩
  | some address =>
      dsimp only
      rw [h.pool.inRange_eq]
      by_cases hin : m.pool.inRange address 1 = true
      · rw [if_pos hin, if_pos hin]
        exact ⟨rfl, rfl, h.pool.setByte address fun hshown => hbyte hshown.1⟩
      · rw [if_neg hin, if_neg hin]
        exact ⟨rfl, h⟩

theorem writeByte_alike (h : Alike clear m other) (a : VirtAddr) {byte counterpart : UInt8}
    (hbyte : clear → counterpart = byte) :
    SameOutcome clear (m.writeByte a byte) (other.writeByte a counterpart) := by
  unfold writeByte
  rw [h.space_eq]
  cases hlookup : m.space.table.lookup a.page with
  | none => exact ⟨rfl, h⟩
  | some entry =>
      dsimp only
      split
      · obtain ⟨result, after, next, hrun, hnext, halike⟩ := (makePrivate_alike h hlookup).cases
        rw [hrun, hnext]
        cases result with
        | error e => exact ⟨rfl, halike⟩
        | ok done => exact storeByte_alike halike a hbyte
      · split
        · exact storeByte_alike h a hbyte
        · exact ⟨rfl, h⟩

theorem writeFrom_alike (h : Alike clear m other) (a : VirtAddr) (i : Nat)
    {bytes counterpart : List UInt8} (hlength : counterpart.length = bytes.length)
    (hbytes : clear → counterpart = bytes) :
    SameOutcome clear (m.writeFrom a i bytes) (other.writeFrom a i counterpart) := by
  induction bytes generalizing m other i counterpart with
  | nil =>
      obtain rfl := List.length_eq_zero_iff.mp hlength
      exact ⟨rfl, h⟩
  | cons byte rest ih =>
      obtain ⟨byte', rest', rfl⟩ := List.exists_cons_of_length_eq_add_one hlength
      unfold writeFrom
      cases rangeAddress a i with
      | error e => exact ⟨rfl, h⟩
      | ok b =>
          dsimp only
          obtain ⟨result, after, next, hrun, hnext, halike⟩ :=
            (writeByte_alike h b fun hclear => (List.cons.inj (hbytes hclear)).1).cases
          rw [hrun, hnext]
          cases result with
          | error e => exact ⟨rfl, halike⟩
          | ok done =>
              exact ih halike (i + 1) (Nat.succ.inj hlength)
                fun hclear => (List.cons.inj (hbytes hclear)).2

theorem readByte_alike (h : Alike True m other) (a : VirtAddr) :
    other.readByte a = m.readByte a := by
  unfold readByte
  rw [h.space_eq]
  cases hlookup : m.space.table.lookup a.page with
  | none =>
      unfold PageTable.translate PageTable.frame?
      rw [hlookup]
      rfl
  | some entry =>
      rw [translate_of_lookup hlookup]
      dsimp only
      unfold FramePool.readByte
      rw [h.pool.inRange_eq, h.pool.byteAt_eq]
      rw [FramePool.frame_add_base]
      exact ⟨trivial, PageTable.frame_mem_frames hlookup⟩

theorem readFrom_alike (h : Alike True m other) (a : VirtAddr) (i count : Nat) :
    other.readFrom a i count = m.readFrom a i count := by
  induction count generalizing i with
  | zero => rfl
  | succ count ih =>
      unfold readFrom
      cases rangeAddress a i with
      | error e => rfl
      | ok b =>
          dsimp only
          rw [readByte_alike h, ih]

/-- The same request, but for the values of the bytes that it writes. -/
inductive Request.SameShape : Request → Request → Prop
  | same (request : Request) : SameShape request request
  | byte (a : VirtAddr) (byte counterpart : UInt8) :
      SameShape (.writeByte a byte) (.writeByte a counterpart)
  | bytes (a : VirtAddr) {bytes counterpart : List UInt8}
      (hlength : counterpart.length = bytes.length) :
      SameShape (.writeRange a bytes) (.writeRange a counterpart)

/-- Requests of the same shape leave memories alike that were, and the answers are
the same as well if the space is clear. -/
theorem serve_alike (h : Alike clear m other) {request counterpart : Request}
    (hshape : request.SameShape counterpart) (hclear : clear → counterpart = request) :
    Alike clear (m.serve request).state (other.serve counterpart).state ∧
      (clear → (other.serve counterpart).result = (m.serve request).result) := by
  have hboth : ∀ {o p : Outcome Memory Reply}, SameOutcome clear o p →
      Alike clear o.state p.state ∧ (clear → p.result = o.result) :=
    fun hsame => ⟨hsame.state, fun _ => hsame.result_eq⟩
  cases hshape with
  | byte a byte counterpart =>
      refine hboth ((writeByte_alike h a ?_).map _)
      intro hc
      cases hclear hc
      rfl
  | bytes a hlength =>
      refine hboth ((writeFrom_alike h a 0 hlength ?_).map _)
      intro hc
      cases hclear hc
      rfl
  | same =>
      cases request with
      | map a flags => exact hboth ((mapPage_alike h a flags).map _)
      | expandBrk newBrk =>
          obtain ⟨hstop, halike⟩ := expandBrk_alike h newBrk
          refine ⟨halike, fun _ => ?_⟩
          show Except.ok (Reply.brk (other.expandBrk newBrk).1) =
            Except.ok (Reply.brk (m.expandBrk newBrk).1)
          rw [hstop]
      | readByte a =>
          refine ⟨h, fun hc => ?_⟩
          have htrue : Alike True m other := eq_true hc ▸ h
          exact congrArg (Except.map Reply.byte) (readByte_alike htrue a)
      | writeByte a byte => exact hboth ((writeByte_alike h a fun _ => rfl).map _)
      | readRange a length =>
          refine ⟨h, fun hc => ?_⟩
          have htrue : Alike True m other := eq_true hc ▸ h
          exact congrArg (Except.map Reply.bytes) (readFrom_alike htrue a 0 length)
      | writeRange a bytes => exact hboth ((writeFrom_alike h a 0 rfl fun _ => rfl).map _)
      | release =>
          have hspace := congrArg (fun s => { s with table := s.table.clear }) h.space_eq
          refine ⟨⟨hspace, ?_⟩, fun _ => rfl⟩
          show (m.pool.freeAll m.space.table.frames).Alike _
            (other.pool.freeAll other.space.table.frames)
          rw [h.space_eq]
          refine (h.pool.freeAll _).mono ?_
          rintro f ⟨-, hf⟩
          have hnil : (m.serve .release).state.space.table.frames = [] :=
            PageTable.frames_eq_nil m.space.table.lookup_clear
          rw [hnil] at hf
          cases hf
      | setCode start stop =>
          exact ⟨⟨congrArg (AddressSpace.setCode · start stop) h.space_eq, h.pool⟩, fun _ => rfl⟩
      | setData start stop =>
          exact ⟨⟨congrArg (AddressSpace.setData · start stop) h.space_eq, h.pool⟩, fun _ => rfl⟩

/-! ### Forks -/

theorem Sharing.pages_alike {shown : FrameId → Prop} {pool next : FramePool}
    (h : pool.Alike shown next) (parent child : PageTable) (pages : List (Nat × PageEntry)) :
    ∃ result parent' child' pool' next',
      Sharing.pages ⟨parent, child, pool⟩ pages = ⟨result, parent', child', pool'⟩ ∧
      Sharing.pages ⟨parent, child, next⟩ pages = ⟨result, parent', child', next'⟩ ∧
      pool'.Alike shown next' := by
  induction pages generalizing parent child pool next with
  | nil => exact ⟨_, _, _, _, _, rfl, rfl, h⟩
  | cons x rest ih =>
      obtain ⟨p, entry⟩ := x
      unfold pages page
      cases hrun : pool.share entry.frame with
      | error e =>
          rw [h.share_error hrun]
          exact ⟨_, _, _, _, _, rfl, rfl, h⟩
      | ok after =>
          obtain ⟨last, hlast, halike⟩ := h.share hrun
          rw [hlast]
          exact ih halike _ _

/-- A fork goes the same way for memories that are alike. -/
theorem fork_alike (h : Alike clear m other) :
    other.fork.result = m.fork.result ∧ Alike False m.fork.state other.fork.state := by
  obtain ⟨result, parent, child, pool, next, hrun, hnext, halike⟩ :=
    Sharing.pages_alike h.pool m.space.table m.space.table m.space.table.entries
  have hbooks : pool.Alike (fun _ => False) next := halike.mono fun f hf => hf.elim
  unfold fork
  rw [h.space_eq]
  dsimp only
  rw [hrun, hnext]
  cases result with
  | error e => exact ⟨rfl, rfl, (hbooks.freeAll child.frames).mono fun f hf => hf.1⟩
  | ok done => exact ⟨rfl, rfl, hbooks.mono fun f hf => hf.1⟩

end Memory

end Kernelet
