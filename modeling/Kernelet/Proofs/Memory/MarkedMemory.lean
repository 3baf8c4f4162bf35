import Kernelet.Proofs.Memory.Balance
import Kernelet.Proofs.Memory.Marks

/-!
Two memories that differ in marks: their spaces have tables that do, and their pools hold the same
in all frames that are in use (`Memory.Marked`).

Nobody can tell the difference. A page that may be written directly has its frame to itself, so
that a write to its counterpart takes the mark off where it is and needs no frame. All other
operations treat the two pages in the same way, and the memories go on to differ in marks at most
(`Memory.serve_marked`, `Memory.fork_marked`).
-/

namespace Kernelet

/-- The spaces differ in marks at most. -/
structure AddressSpace.Marked (space other : AddressSpace) : Prop where
  space_eq : other = { space with table := other.table }
  table : space.table.Marked other.table

theorem AddressSpace.Marked.refl (space : AddressSpace) : space.Marked space :=
  ⟨rfl, PageTable.Marked.refl space.table⟩

theorem AddressSpace.Marked.setCode {space other : AddressSpace} (h : space.Marked other)
    (start stop : Nat) : (space.setCode start stop).Marked (other.setCode start stop) where
  space_eq := by
    rw [h.space_eq]
    rfl
  table := h.table

theorem AddressSpace.Marked.setData {space other : AddressSpace} (h : space.Marked other)
    (start stop : Nat) : (space.setData start stop).Marked (other.setData start stop) where
  space_eq := by
    rw [h.space_eq]
    rfl
  table := h.table

theorem AddressSpace.Marked.releaseFrames {space other : AddressSpace} {pool next : FramePool}
    (h : space.Marked other) (hpool : pool.Unchanged next) :
    (space.releaseFrames pool).Unchanged (other.releaseFrames next) := by
  unfold AddressSpace.releaseFrames
  rw [h.table.frames_eq]
  exact hpool.freeAll space.table.frames

namespace Memory

/-- The spaces differ in marks at most, and the pools in frames that nobody uses. -/
structure Marked (m other : Memory) : Prop where
  space : m.space.Marked other.space
  pool : m.pool.Unchanged other.pool

/-- The same result, and memories that differ in marks at most. -/
structure MarkedOutcome {α : Type} (o p : Outcome Memory α) : Prop where
  result_eq : p.result = o.result
  state : o.state.Marked p.state

variable {m other : Memory} {total reserved : Nat} {others : List PageTable}

theorem MarkedOutcome.cases {α : Type} {o p : Outcome Memory α} (h : MarkedOutcome o p) :
    ∃ result after next, o = ⟨result, after⟩ ∧ p = ⟨result, next⟩ ∧ after.Marked next := by
  obtain ⟨result, after⟩ := o
  obtain ⟨result', next⟩ := p
  have hresult : result' = result := h.result_eq
  exact ⟨result, after, next, rfl, by rw [hresult], h.state⟩

theorem MarkedOutcome.map {α β : Type} {o p : Outcome Memory α} (h : MarkedOutcome o p)
    (g : α → β) : MarkedOutcome (o.map g) (p.map g) where
  result_eq := congrArg (Except.map g) h.result_eq
  state := h.state

/-- Spaces that differ in marks still do so with other tables in which they differ in marks. -/
theorem Marked.withTable (h : m.Marked other) {table table' : PageTable} {pool pool' : FramePool}
    (htable : table.Marked table') (hpool : pool.Unchanged pool') :
    Marked ⟨{ m.space with table }, pool⟩ ⟨{ other.space with table := table' }, pool'⟩ where
  space := by
    refine ⟨?_, htable⟩
    rw [h.space.space_eq]
  pool := hpool

theorem Marked.withPool (h : m.Marked other) {pool pool' : FramePool}
    (hpool : pool.Unchanged pool') : Marked { m with pool } { other with pool := pool' } :=
  ⟨h.space, hpool⟩

theorem mapPage_marked (h : m.Marked other) (a : VirtAddr) (flags : PageFlags) :
    MarkedOutcome (m.mapPage a flags) (other.mapPage a flags) := by
  unfold mapPage
  rw [h.space.table.isMapped_eq, h.space.table.maxPages_eq]
  split
  · exact ⟨rfl, h⟩
  · split
    · cases hrun : m.pool.allocate with
      | error e =>
          rw [h.pool.allocate_error hrun]
          exact ⟨rfl, h⟩
      | ok handed =>
          obtain ⟨frame, after⟩ := handed
          obtain ⟨next, hnext, hpool⟩ := h.pool.allocate hrun
          rw [hnext]
          dsimp only
          cases hmap : m.space.table.map a.page frame flags with
          | error e =>
              rw [h.space.table.map_error hmap]
              exact ⟨rfl, h.withPool hpool⟩
          | ok table =>
              obtain ⟨table', hmap', htable⟩ := h.space.table.map rfl hmap
              rw [hmap']
              exact ⟨rfl, h.withTable htable hpool⟩
    · exact ⟨rfl, h⟩

theorem mapPages_marked (h : m.Marked other) (first : Nat) (flags : PageFlags) (count : Nat) :
    MarkedOutcome (m.mapPages first flags count) (other.mapPages first flags count) := by
  induction count generalizing m other first with
  | zero => exact ⟨rfl, h⟩
  | succ count ih =>
      unfold mapPages
      obtain ⟨result, after, next, hrun, hnext, hmarked⟩ :=
        (mapPage_marked h (VirtAddr.ofPage first) flags).cases
      rw [hrun, hnext]
      cases result with
      | error e => exact ⟨rfl, hmarked⟩
      | ok done => exact ih hmarked (first + 1)

theorem growPages_marked (h : m.Marked other) (first count : Nat) :
    (other.growPages first count).1 = (m.growPages first count).1 ∧
      (m.growPages first count).2.Marked (other.growPages first count).2 := by
  induction count generalizing m other first with
  | zero => exact ⟨rfl, h⟩
  | succ count ih =>
      unfold growPages
      obtain ⟨result, after, next, hrun, hnext, hmarked⟩ :=
        (mapPage_marked h (VirtAddr.ofPage first) .userData).cases
      rw [hrun, hnext]
      cases result with
      | error e => exact ⟨rfl, hmarked⟩
      | ok done => exact ih hmarked (first + 1)

/-- The end of the heap is set in both. -/
theorem Marked.withBrk (h : m.Marked other) (brk : Nat) :
    Marked { m with space := { m.space with brk } }
      { other with space := { other.space with brk } } where
  space := by
    refine ⟨?_, h.space.table⟩
    rw [h.space.space_eq]
  pool := h.pool

theorem expandBrk_marked (h : m.Marked other) (newBrk : VirtAddr) :
    (other.expandBrk newBrk).1 = (m.expandBrk newBrk).1 ∧
      (m.expandBrk newBrk).2.Marked (other.expandBrk newBrk).2 := by
  have hsize : other.space.size = m.space.size := by rw [h.space.space_eq]
  have hend : other.space.dataEnd = m.space.dataEnd := by rw [h.space.space_eq]
  have hbrk : other.space.brk = m.space.brk := by rw [h.space.space_eq]
  unfold expandBrk
  rw [hsize, hend, hbrk]
  dsimp only
  split
  · exact ⟨rfl, h⟩
  · split
    · exact ⟨rfl, h⟩
    · rename_i target _
      split
      · exact ⟨rfl, h⟩
      · obtain ⟨hstop, hmarked⟩ := growPages_marked h (m.space.brk / pageSize)
          (target.page - m.space.brk / pageSize)
        rcases hrun : m.growPages (m.space.brk / pageSize)
          (target.page - m.space.brk / pageSize) with ⟨stop, after⟩
        rcases hnext : other.growPages (m.space.brk / pageSize)
          (target.page - m.space.brk / pageSize) with ⟨stop', next⟩
        rw [hrun, hnext] at hstop hmarked
        cases hstop
        cases stop with
        | none => exact ⟨rfl, hmarked.withBrk target.toNat⟩
        | some stopped => exact ⟨rfl, hmarked.withBrk (max m.space.brk stopped)⟩

/-! ### Bytes -/

theorem storeByte_marked (h : m.Marked other) (a : VirtAddr) (byte : UInt8) :
    MarkedOutcome (m.storeByte a byte) (other.storeByte a byte) := by
  unfold storeByte FramePool.writeByte
  rw [h.space.table.translate_eq]
  cases m.space.table.translate a with
  | none => exact ⟨rfl, h⟩
  | some address =>
      dsimp only
      rw [h.pool.alike.inRange_eq]
      by_cases hin : m.pool.inRange address 1 = true
      · rw [if_pos hin, if_pos hin]
        exact ⟨rfl, h.withPool (h.pool.setByte address byte)⟩
      · rw [if_neg hin, if_neg hin]
        exact ⟨rfl, h⟩

/-- A copy-on-write page is made private in both. -/
theorem makePrivate_marked (h : m.Marked other) {p : Nat} {entry entry' : PageEntry}
    (hmarks : entry.Marks entry') (hbusy : m.pool.refCount entry.frame ≠ 0) :
    MarkedOutcome (m.makePrivate p entry) (other.makePrivate p entry') := by
  unfold makePrivate
  rw [hmarks.frame_eq, h.pool.refCount_eq]
  split
  · exact ⟨rfl, h.withTable (h.space.table.setFlags hmarks.owned_eq) h.pool⟩
  · cases hrun : m.pool.allocate with
    | error e =>
        rw [h.pool.allocate_error hrun]
        exact ⟨rfl, h⟩
    | ok handed =>
        obtain ⟨frame, after⟩ := handed
        obtain ⟨next, hnext, hpool⟩ := h.pool.allocate hrun
        have hsource : after.refCount entry.frame ≠ 0 := by
          rw [FramePool.refCount_allocate hrun]
          split
          · exact Nat.one_ne_zero
          · exact hbusy
        rw [hnext]
        dsimp only
        cases hcopy : after.copyFrame entry.frame frame with
        | error e =>
            rw [hpool.copyFrame_error hcopy]
            exact ⟨rfl, h.withPool (hpool.free frame)⟩
        | ok copied =>
            obtain ⟨copied', hcopy', hcopied⟩ := hpool.copyFrame hsource hcopy
            rw [hcopy']
            dsimp only
            cases hmap : m.space.table.map p frame entry.flags.owned with
            | error e =>
                rw [h.space.table.map_error hmap]
                exact ⟨rfl, h.withPool (hcopied.free entry.frame)⟩
            | ok table =>
                obtain ⟨table', hmap', htable⟩ := h.space.table.map hmarks.owned_eq hmap
                rw [hmap']
                exact ⟨rfl, h.withTable htable (hcopied.free entry.frame)⟩

/-- A page that may be written directly is written as it is; its counterpart first loses its
mark, for which it needs no frame. -/
theorem writeByte_of_writable (hfits : Fits total reserved others m) (h : m.Marked other)
    {a : VirtAddr} {entry : PageEntry} (hlookup : m.space.table.lookup a.page = some entry)
    (hother : other.space.table.lookup a.page = some entry.marked)
    (hwritable : entry.flags.writable = true) (hcopy : entry.flags.copyOnWrite = false)
    (byte : UInt8) : MarkedOutcome (m.storeByte a byte) (other.writeByte a byte) := by
  have hpresent := PageTable.present_of_lookup hlookup
  have hone : m.pool.refCount entry.frame = 1 :=
    hfits.refCount_of_writable List.mem_cons_self hlookup hwritable
  have hmarked : entry.marked.flags.copyOnWrite = true := rfl
  have howned : (⟨entry.frame, entry.marked.flags.owned.normalized⟩ : PageEntry) = entry :=
    PageEntry.owned_eq_self hpresent hwritable hcopy
  have hprivate : m.space.table.Marked
      (other.space.table.setFlags a.page entry.marked.flags.owned).2 := by
    refine ⟨?_, ?_⟩
    · rw [PageTable.maxPages_setFlags, h.space.table.maxPages_eq]
    · intro q
      rw [PageTable.lookup_setFlags]
      split
      · rename_i hq
        rw [hother, ← hq, hlookup, Option.map_some, PageEntry.frame_marked, howned]
        exact Option.Rel.some PageEntry.Marks.same
      · exact h.space.table.lookup q
  unfold writeByte makePrivate
  rw [hother]
  dsimp only
  rw [if_pos hmarked, PageEntry.frame_marked, h.pool.refCount_eq, if_pos hone]
  exact storeByte_marked (h.withTable hprivate h.pool) a byte

theorem writeByte_of_private {a : VirtAddr} {entry : PageEntry}
    (hlookup : m.space.table.lookup a.page = some entry)
    (hcopy : entry.flags.copyOnWrite = false) (byte : UInt8) :
    m.writeByte a byte =
      if entry.flags.writable then m.storeByte a byte else ⟨.error (.permissionFault a), m⟩ := by
  unfold writeByte
  rw [hlookup]
  dsimp only
  rw [if_neg (by simp [hcopy])]

theorem writeByte_marked (hfits : Fits total reserved others m) (h : m.Marked other)
    (a : VirtAddr) (byte : UInt8) :
    MarkedOutcome (m.writeByte a byte) (other.writeByte a byte) := by
  rcases h.space.table.cases a.page with
    ⟨hlookup, hother⟩ | ⟨entry, entry', hlookup, hother, hmarks⟩
  · unfold writeByte
    rw [hlookup, hother]
    exact ⟨rfl, h⟩
  · have hbusy : m.pool.refCount entry.frame ≠ 0 :=
      hfits.backs.refCount_pos (frame_mem_namedFrames List.mem_cons_self hlookup)
    cases hcopy : entry.flags.copyOnWrite with
    | true =>
        have hcopy' : entry'.flags.copyOnWrite = true := by
          cases hmarks with
          | same => exact hcopy
          | marked hwritable => rfl
        unfold writeByte
        rw [hlookup, hother]
        dsimp only
        rw [if_pos hcopy, if_pos hcopy']
        obtain ⟨result, after, next, hrun, hnext, hmarked⟩ :=
          (makePrivate_marked (p := a.page) h hmarks hbusy).cases
        rw [hrun, hnext]
        cases result with
        | error e => exact ⟨rfl, hmarked⟩
        | ok done => exact storeByte_marked hmarked a byte
    | false =>
        rw [writeByte_of_private hlookup hcopy]
        cases hmarks with
        | marked hwritable =>
            rw [if_pos hwritable]
            exact writeByte_of_writable hfits h hlookup hother hwritable hcopy byte
        | same =>
            rw [writeByte_of_private hother hcopy]
            split
            · exact storeByte_marked h a byte
            · exact ⟨rfl, h⟩

theorem writeFrom_marked (hfits : Fits total reserved others m) (h : m.Marked other)
    (a : VirtAddr) (i : Nat) (bytes : List UInt8) :
    MarkedOutcome (m.writeFrom a i bytes) (other.writeFrom a i bytes) := by
  induction bytes generalizing m other i with
  | nil => exact ⟨rfl, h⟩
  | cons byte rest ih =>
      unfold writeFrom
      cases rangeAddress a i with
      | error e => exact ⟨rfl, h⟩
      | ok b =>
          dsimp only
          have hafter := writeByte_fits hfits b byte
          obtain ⟨result, after, next, hrun, hnext, hmarked⟩ :=
            (writeByte_marked hfits h b byte).cases
          rw [hrun] at hafter
          rw [hrun, hnext]
          cases result with
          | error e => exact ⟨rfl, hmarked⟩
          | ok done => exact ih hafter hmarked (i + 1)

theorem readByte_marked (hfits : Fits total reserved others m) (h : m.Marked other)
    (a : VirtAddr) : other.readByte a = m.readByte a := by
  unfold readByte
  rw [h.space.table.translate_eq]
  cases hlookup : m.space.table.lookup a.page with
  | none =>
      unfold PageTable.translate PageTable.frame?
      rw [hlookup]
      rfl
  | some entry =>
      rw [translate_of_lookup hlookup]
      dsimp only
      unfold FramePool.readByte
      rw [h.pool.alike.inRange_eq, h.pool.alike.byteAt_eq]
      rw [FramePool.frame_add_base]
      exact hfits.backs.refCount_pos (frame_mem_namedFrames List.mem_cons_self hlookup)

theorem readFrom_marked (hfits : Fits total reserved others m) (h : m.Marked other)
    (a : VirtAddr) (i count : Nat) : other.readFrom a i count = m.readFrom a i count := by
  induction count generalizing i with
  | zero => rfl
  | succ count ih =>
      unfold readFrom
      cases rangeAddress a i with
      | error e => rfl
      | ok b =>
          dsimp only
          rw [readByte_marked hfits h, ih]

theorem release_marked (h : m.Marked other) : m.release.Marked other.release :=
  h.withTable h.space.table.clear (h.space.releaseFrames h.pool)

/-- Whatever is asked of memories that differ in marks is answered alike, and they go on to differ
in marks at most. -/
theorem serve_marked (hfits : Fits total reserved others m) (h : m.Marked other)
    (request : Request) : MarkedOutcome (m.serve request) (other.serve request) := by
  cases request with
  | map a flags => exact (mapPage_marked h a flags).map _
  | expandBrk newBrk =>
      obtain ⟨hstop, hmarked⟩ := expandBrk_marked h newBrk
      refine ⟨?_, hmarked⟩
      show Except.ok (Reply.brk (other.expandBrk newBrk).1) =
        Except.ok (Reply.brk (m.expandBrk newBrk).1)
      rw [hstop]
  | readByte a => exact ⟨congrArg (Except.map Reply.byte) (readByte_marked hfits h a), h⟩
  | writeByte a byte => exact (writeByte_marked hfits h a byte).map _
  | readRange a length =>
      exact ⟨congrArg (Except.map Reply.bytes) (readFrom_marked hfits h a 0 length), h⟩
  | writeRange a bytes => exact (writeFrom_marked hfits h a 0 bytes).map _
  | release => exact ⟨rfl, release_marked h⟩
  | setCode start stop => exact ⟨rfl, h.space.setCode start stop, h.pool⟩
  | setData start stop => exact ⟨rfl, h.space.setData start stop, h.pool⟩

/-! ### Forks -/

theorem unmapAll_marked {table other : PageTable} (h : table.Marked other)
    {pages pages' : List (Nat × PageEntry)}
    (hpages : List.Forall₂ (fun x y => y.1 = x.1 ∧ PageEntry.Marks x.2 y.2) pages pages') :
    (pages.foldl (fun table (q, _) => (table.unmap q).2) table).Marked
      (pages'.foldl (fun table (q, _) => (table.unmap q).2) other) := by
  induction hpages generalizing table other with
  | nil => exact h
  | @cons x y _ _ hfirst _ ih =>
      obtain ⟨p, entry⟩ := x
      obtain ⟨p', entry'⟩ := y
      obtain ⟨rfl, -⟩ := hfirst
      exact ih (h.unmap _)

theorem Sharing.pages_marked {s t : Sharing} (hparent : s.parent.Marked t.parent)
    (hchild : s.child.Marked t.child) (hpool : s.pool.Unchanged t.pool)
    {pages pages' : List (Nat × PageEntry)}
    (hpages : List.Forall₂ (fun x y => y.1 = x.1 ∧ PageEntry.Marks x.2 y.2) pages pages') :
    ∃ result s' t', s.pages pages = ⟨result, s'⟩ ∧ t.pages pages' = ⟨result, t'⟩ ∧
      s'.parent.Marked t'.parent ∧ s'.child.Marked t'.child ∧ s'.pool.Unchanged t'.pool := by
  induction hpages generalizing s t with
  | nil => exact ⟨_, _, _, rfl, rfl, hparent, hchild, hpool⟩
  | @cons x y rest rest' hfirst hrest ih =>
      obtain ⟨p, entry⟩ := x
      obtain ⟨p', entry'⟩ := y
      obtain ⟨rfl, hmarks⟩ := hfirst
      have hmarks : entry.Marks entry' := hmarks
      unfold Sharing.pages Sharing.page
      rw [hmarks.frame_eq]
      cases hrun : s.pool.share entry.frame with
      | error e =>
          rw [hpool.share_error hrun]
          exact ⟨_, _, _, rfl, rfl, hparent,
            unmapAll_marked hchild (List.Forall₂.cons ⟨rfl, hmarks⟩ hrest), hpool⟩
      | ok after =>
          obtain ⟨next, hnext, hunchanged⟩ := hpool.share hrun
          rw [hnext]
          exact ih (hparent.setFlags hmarks.shared_eq) (hchild.setFlags hmarks.shared_eq)
            hunchanged

/-- A fork goes the same way, and neither parents nor children differ but in marks. -/
theorem fork_marked (h : m.Marked other) :
    (∃ e after next, m.fork = ⟨.error e, after⟩ ∧ other.fork = ⟨.error e, next⟩ ∧
      after.Marked next) ∨
    ∃ child child' after next, m.fork = ⟨.ok child, after⟩ ∧ other.fork = ⟨.ok child', next⟩ ∧
      child.Marked child' ∧ after.Marked next := by
  obtain ⟨result, s, t, hrun, hnext, hparent, hchild, hpool⟩ := Sharing.pages_marked
    (s := ⟨m.space.table, m.space.table, m.pool⟩)
    (t := ⟨other.space.table, other.space.table, other.pool⟩)
    h.space.table h.space.table h.pool h.space.table.entries
  unfold fork
  dsimp only
  rw [hrun, hnext]
  cases result with
  | error e =>
      have hreleased : (s.pool.freeAll s.child.frames).Unchanged
          (t.pool.freeAll t.child.frames) := by
        rw [hchild.frames_eq]
        exact hpool.freeAll s.child.frames
      exact Or.inl ⟨e, _, _, rfl, rfl, h.withTable hparent hreleased⟩
  | ok done =>
      exact Or.inr ⟨_, _, _, _, rfl, rfl, (h.withTable hchild hpool).space,
        h.withTable hparent hpool⟩

end Memory

end Kernelet
