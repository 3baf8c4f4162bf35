import Kernelet.Memory.Access
import Kernelet.Proofs.Memory.NamedFrames
import Kernelet.Proofs.Memory.References

/-!
The operations on a single page, seen from a process and from everybody else.
Over a pool that backs exactly what the tables name, each of them is refused
and changes nothing, or succeeds and changes what one page of one space reads
as (`Memory.Update`). No other page of that space and no page of any other
space can tell the difference, even though a copy-on-write page moves to
another frame.
-/

namespace Kernelet

/-- A pool backs what some tidy tables name, and nothing else. -/
structure Balanced (total reserved : Nat) (pool : FramePool) (tables : List PageTable) :
    Prop where
  backs : pool.Backs total reserved (namedFrames tables)
  tidy : Tidy tables

/-- A page as its process sees it. -/
structure Page where
  bytes : PageBytes
  writable : Bool

/-- The position of an address within its page. -/
def VirtAddr.place (a : VirtAddr) : Fin pageSize :=
  ⟨a.offset, a.offset_lt⟩

/-- The byte that a page holds for an address in it. -/
def Page.read (page : Page) (a : VirtAddr) : UInt8 :=
  page.bytes[a.place]

/-- The page with one byte replaced. -/
def Page.write (page : Page) (a : VirtAddr) (byte : UInt8) : Page :=
  { page with bytes := page.bytes.set a.place byte }

/-- Page `p` as a process sees it, if it is mapped. -/
def PageTable.page? (table : PageTable) (pool : FramePool) (p : Nat) : Option Page :=
  (table.lookup p).map fun entry => ⟨pool.bytesOf entry.frame, entry.flags.mayWrite⟩

/-- The frames named by other tables still hold what they held. -/
def KeepsBytes (pool after : FramePool) (others : List PageTable) : Prop :=
  ∀ f ∈ namedFrames others, after.bytesOf f = pool.bytesOf f

theorem KeepsBytes.refl (pool : FramePool) (others : List PageTable) :
    KeepsBytes pool pool others :=
  fun _ _ => rfl

theorem KeepsBytes.trans {pool after next : FramePool} {others : List PageTable}
    (h : KeepsBytes pool after others) (hnext : KeepsBytes after next others) :
    KeepsBytes pool next others :=
  fun f hf => (hnext f hf).trans (h f hf)

theorem KeepsBytes.page?_eq {pool after : FramePool} {others : List PageTable}
    (h : KeepsBytes pool after others) {table : PageTable} (hmem : table ∈ others) (p : Nat) :
    table.page? after p = table.page? pool p := by
  unfold PageTable.page?
  cases hlookup : table.lookup p with
  | none => rw [Option.map_none, Option.map_none]
  | some entry =>
      rw [Option.map_some, Option.map_some, h entry.frame (frame_mem_namedFrames hmem hlookup)]

theorem PageFlags.mayWrite_normalized (flags : PageFlags) :
    flags.normalized.mayWrite = flags.mayWrite := by
  obtain ⟨p, w, u, c⟩ := flags
  cases w <;> cases c <;> rfl

namespace Balanced

variable {total reserved : Nat} {pool after : FramePool} {tables other : List PageTable}
  {table : PageTable}

theorem perm (h : Balanced total reserved pool tables) (hperm : tables.Perm other) :
    Balanced total reserved pool other :=
  ⟨h.backs.perm (namedFrames_perm hperm), h.tidy.perm hperm⟩

theorem cons_empty (h : Balanced total reserved pool tables)
    (hempty : ∀ p, table.lookup p = none) : Balanced total reserved pool (table :: tables) := by
  refine ⟨?_, h.tidy.cons_empty hempty⟩
  rw [namedFrames_cons, PageTable.frames_eq_nil hempty]
  exact h.backs

theorem of_cons_empty (h : Balanced total reserved pool (table :: tables))
    (hempty : ∀ p, table.lookup p = none) : Balanced total reserved pool tables := by
  refine ⟨?_, h.tidy.of_cons⟩
  have hbacks := h.backs
  rw [namedFrames_cons, PageTable.frames_eq_nil hempty] at hbacks
  exact hbacks

/-- With page `p` taken out of its table, the pool backs the frame of that page
and the rest. -/
theorem backs_page (h : Balanced total reserved pool (table :: tables)) {p : Nat}
    {entry : PageEntry} (hlookup : table.lookup p = some entry) :
    pool.Backs total reserved
      (entry.frame :: (table.framesOff p ++ namedFrames tables)) :=
  h.backs.perm ((PageTable.frames_perm_cons hlookup).append_right _)

/-- A page that may be written directly has its frame to itself. -/
theorem refCount_of_writable (h : Balanced total reserved pool tables) (hmem : table ∈ tables)
    {p : Nat} {entry : PageEntry} (hlookup : table.lookup p = some entry)
    (hwritable : entry.flags.writable = true) : pool.refCount entry.frame = 1 := by
  rw [h.backs.refCount_of_mem (frame_mem_namedFrames hmem hlookup)]
  exact h.tidy.alone table hmem p entry hlookup hwritable

/-- One page of a table comes to name a frame of its own. -/
theorem replace {old : PageTable} {p : Nat} {entry : PageEntry} (htidy : Tidy (old :: tables))
    (hmax : table.maxPages = old.maxPages) (hp : p < old.maxPages)
    (hpage : table.lookup p = some entry)
    (hrest : ∀ q, p ≠ q → table.lookup q = old.lookup q)
    (hfresh : entry.frame ∉ old.framesOff p ++ namedFrames tables)
    (hbacks : pool.Backs total reserved
      (entry.frame :: (old.framesOff p ++ namedFrames tables))) :
    Balanced total reserved pool (table :: tables) := by
  refine ⟨hbacks.perm ?_, htidy.replace hmax hp hpage hrest hfresh⟩
  have hframes := (PageTable.frames_perm_cons hpage).trans
    ((PageTable.framesOff_perm hrest).cons _)
  rw [namedFrames_cons]
  exact hframes.symm.append_right _

end Balanced

namespace Memory

variable {total reserved : Nat} {m after next : Memory} {others : List PageTable} {p : Nat}
  {page : Page}

/-- Page `p` of the space has come to read as `page`, and nothing else that a
process can see has changed. -/
structure Update (m after : Memory) (others : List PageTable) (p : Nat) (page : Page) : Prop where
  space_eq : after.space = { m.space with table := after.space.table }
  maxPages_eq : after.space.table.maxPages = m.space.table.maxPages
  page_self : after.space.table.page? after.pool p = some page
  page_ne : ∀ q, p ≠ q → after.space.table.page? after.pool q = m.space.table.page? m.pool q
  keeps : KeepsBytes m.pool after.pool others

theorem Update.trans {last : Page} (h : Update m after others p page)
    (hnext : Update after next others p last) : Update m next others p last where
  space_eq := by
    rw [hnext.space_eq, h.space_eq]
  maxPages_eq := hnext.maxPages_eq.trans h.maxPages_eq
  page_self := hnext.page_self
  page_ne := by
    intro q hq
    exact (hnext.page_ne q hq).trans (h.page_ne q hq)
  keeps := h.keeps.trans hnext.keeps

/-- A page comes to name a frame that nothing else names. As long as no other
frame is written, that is an update of the page. -/
theorem update_of_alone (htidy : Tidy (m.space.table :: others)) {pool : FramePool}
    {table : PageTable} {entry : PageEntry}
    (hmax : table.maxPages = m.space.table.maxPages) (hp : p < m.space.table.maxPages)
    (hpage : table.lookup p = some entry)
    (hrest : ∀ q, p ≠ q → table.lookup q = m.space.table.lookup q)
    (halone : entry.frame ∉ m.space.table.framesOff p ++ namedFrames others)
    (hbacks : pool.Backs total reserved
      (entry.frame :: (m.space.table.framesOff p ++ namedFrames others)))
    (hbytes : ∀ f, entry.frame ≠ f → pool.bytesOf f = m.pool.bytesOf f) :
    Balanced total reserved pool (table :: others) ∧
      Update m ⟨{ m.space with table }, pool⟩ others p
        ⟨pool.bytesOf entry.frame, entry.flags.mayWrite⟩ := by
  have hkeeps : ∀ f ∈ m.space.table.framesOff p ++ namedFrames others,
      pool.bytesOf f = m.pool.bytesOf f := by
    intro f hf
    apply hbytes
    rintro rfl
    exact halone hf
  refine ⟨Balanced.replace htidy hmax hp hpage hrest halone hbacks, rfl, hmax, ?_, ?_, ?_⟩
  · simp [PageTable.page?, hpage]
  · intro q hq
    unfold PageTable.page?
    rw [hrest q hq]
    cases hlookup : m.space.table.lookup q with
    | none => rw [Option.map_none, Option.map_none]
    | some other =>
        have hmem : other.frame ∈ m.space.table.framesOff p :=
          PageTable.mem_framesOff.mpr ⟨q, other, Ne.symm hq, hlookup, rfl⟩
        rw [Option.map_some, Option.map_some, hkeeps other.frame (List.mem_append_left _ hmem)]
  · intro f hf
    exact hkeeps f (List.mem_append_right _ hf)

/-- Mapping a page leaves a mapped one alone, is refused beyond the limit or
when memory has run out, and otherwise adds a page of zeros. -/
theorem mapPage_cases (h : Balanced total reserved m.pool (m.space.table :: others))
    (a : VirtAddr) (flags : PageFlags) :
    (m.space.table.isMapped a.page = true ∧ m.mapPage a flags = ⟨.ok (), m⟩) ∨
    (m.space.table.isMapped a.page = false ∧ m.space.table.maxPages ≤ a.page ∧
      m.mapPage a flags = ⟨.error (.addressOutOfRange a), m⟩) ∨
    (m.space.table.isMapped a.page = false ∧ a.page < m.space.table.maxPages ∧
      (m.pool.freeCount = 0 ∧ m.mapPage a flags = ⟨.error .outOfMemory, m⟩ ∨
        ∃ after, m.mapPage a flags = ⟨.ok (), after⟩ ∧
          Balanced total reserved after.pool (after.space.table :: others) ∧
          Update m after others a.page ⟨PageBytes.zero, flags.mayWrite⟩)) := by
  unfold mapPage
  cases hmapped : m.space.table.isMapped a.page with
  | true => exact Or.inl ⟨rfl, if_pos rfl⟩
  | false =>
      right
      by_cases hlt : a.page < m.space.table.maxPages
      · right
        refine ⟨rfl, hlt, ?_⟩
        rw [if_neg (by simp), if_pos hlt]
        cases hrun : m.pool.allocate with
        | error e =>
            obtain ⟨rfl, hfull⟩ := h.backs.allocate_error hrun
            exact Or.inl ⟨hfull, rfl⟩
        | ok handed =>
            obtain ⟨frame, pool⟩ := handed
            right
            obtain ⟨table, hmap, hmax, hpage, hrest⟩ := PageTable.exists_map hlt frame flags
            have hfree : m.space.table.lookup a.page = none :=
              PageTable.isMapped_eq_false_iff.mp hmapped
            obtain ⟨hfresh, hbacks⟩ := (h.backs.perm
              ((PageTable.frames_perm_framesOff hfree).append_right _)).allocate hrun
            have hbytes := FramePool.bytesOf_allocate hrun
            obtain ⟨hbalanced, hupdate⟩ := update_of_alone h.tidy hmax hlt hpage hrest hfresh
              hbacks fun f hne => (hbytes f).trans (if_neg hne)
            dsimp only
            rw [hmap]
            have hzero : pool.bytesOf frame = PageBytes.zero := (hbytes frame).trans (if_pos rfl)
            rw [PageEntry.new, hzero, PageFlags.mayWrite_normalized] at hupdate
            exact ⟨_, rfl, hbalanced, hupdate⟩
      · left
        refine ⟨rfl, Nat.le_of_not_lt hlt, ?_⟩
        rw [if_neg (by simp), if_neg hlt]

/-- A page cannot be mapped for want of a frame, or because it lies out of range. -/
theorem mapPage_error {a : VirtAddr} {flags : PageFlags} {e : KernelError}
    (hrun : (m.mapPage a flags).result = .error e) :
    e = .outOfMemory ∨ ∃ a, e = .addressOutOfRange a := by
  unfold mapPage at hrun
  split at hrun
  · cases hrun
  · split at hrun
    · split at hrun
      · rename_i hallocate
        cases hrun
        exact Or.inl (FramePool.allocate_eq_error_iff.mp hallocate).1
      · split at hrun
        · rename_i hmap
          cases hrun
          exact Or.inr ⟨_, (PageTable.map_eq_error_iff.mp hmap).2⟩
        · cases hrun
    · cases hrun
      exact Or.inr ⟨a, rfl⟩

theorem mapPages_error {first count : Nat} {flags : PageFlags} {e : KernelError}
    (hrun : (m.mapPages first flags count).result = .error e) :
    e = .outOfMemory ∨ ∃ a, e = .addressOutOfRange a := by
  induction count generalizing m first with
  | zero => cases hrun
  | succ count ih =>
      unfold mapPages at hrun
      split at hrun
      · rename_i hpage
        cases hrun
        exact mapPage_error (congrArg Outcome.result hpage)
      · exact ih hrun

/-- A page whose frame nobody else names is made private where it is, even if no frame
is free. -/
theorem makePrivate_of_sole (h : Balanced total reserved m.pool (m.space.table :: others))
    {entry : PageEntry} (hlookup : m.space.table.lookup p = some entry)
    (hone : m.pool.refCount entry.frame = 1) :
    ∃ after, m.makePrivate p entry = ⟨.ok (), after⟩ ∧
      Balanced total reserved after.pool (after.space.table :: others) ∧
      Update m after others p ⟨m.pool.bytesOf entry.frame, true⟩ ∧
      after.space.table.lookup p = some ⟨entry.frame, entry.flags.owned.normalized⟩ ∧
      after.pool = m.pool := by
  have hbacks := h.backs_page hlookup
  have hp := h.tidy.lt_maxPages m.space.table List.mem_cons_self p entry hlookup
  have hset := m.space.table.lookup_setFlags p
  have hpage : (m.space.table.setFlags p entry.flags.owned).2.lookup p =
      some ⟨entry.frame, entry.flags.owned.normalized⟩ := by
    rw [hset, if_pos rfl, hlookup, Option.map_some]
  have hrest : ∀ q, p ≠ q →
      (m.space.table.setFlags p entry.flags.owned).2.lookup q = m.space.table.lookup q := by
    intro q hq
    rw [hset, if_neg hq]
  have hmax := m.space.table.maxPages_setFlags p entry.flags.owned
  obtain ⟨hbalanced, hupdate⟩ := update_of_alone h.tidy hmax hp hpage hrest
    (hbacks.not_mem_of_refCount_eq_one hone) hbacks fun f _ => rfl
  unfold makePrivate
  rw [if_pos hone]
  exact ⟨_, rfl, hbalanced, hupdate, hpage, rfl⟩

/-- A page whose frame has other names moves to a copy of it, which takes a frame. -/
theorem makePrivate_of_shared (h : Balanced total reserved m.pool (m.space.table :: others))
    {entry : PageEntry} (hlookup : m.space.table.lookup p = some entry)
    (hmany : m.pool.refCount entry.frame ≠ 1) :
    (m.pool.freeCount = 0 ∧ m.makePrivate p entry = ⟨.error .outOfMemory, m⟩) ∨
    ∃ after copy, m.makePrivate p entry = ⟨.ok (), after⟩ ∧
      Balanced total reserved after.pool (after.space.table :: others) ∧
      Update m after others p ⟨m.pool.bytesOf entry.frame, true⟩ ∧
      after.space.table.lookup p = some ⟨copy, entry.flags.owned.normalized⟩ ∧
      m.pool.refCount copy = 0 ∧ after.pool.freeCount + 1 = m.pool.freeCount := by
  have hbacks := h.backs_page hlookup
  have hp := h.tidy.lt_maxPages m.space.table List.mem_cons_self p entry hlookup
  unfold makePrivate
  rw [if_neg hmany]
  cases hrun : m.pool.allocate with
  | error e =>
      obtain ⟨rfl, hfull⟩ := h.backs.allocate_error hrun
      exact Or.inl ⟨hfull, rfl⟩
  | ok handed =>
      obtain ⟨copy, pool⟩ := handed
      right
      obtain ⟨-, hfree, -⟩ := FramePool.first_free_of_allocate hrun
      obtain ⟨hfresh, copied, hcopy, hexchanged, hbytes⟩ := hbacks.exchange hrun
      obtain ⟨table, hmap, hmax, hpage, hrest⟩ :=
        PageTable.exists_map hp copy entry.flags.owned
      have halone : copy ∉ m.space.table.framesOff p ++ namedFrames others :=
        fun hmem => hfresh (List.mem_cons_of_mem _ hmem)
      obtain ⟨hbalanced, hupdate⟩ := update_of_alone h.tidy hmax hp hpage hrest halone
        hexchanged fun f hne => (hbytes f).trans (if_neg hne)
      have hcount := hbacks.freeCount_of_exchange (hbacks.mem_of_refCount_ne_one hmany)
        hexchanged halone
      dsimp only
      rw [hcopy]
      dsimp only
      rw [hmap]
      rw [PageEntry.new, hbytes, if_pos rfl] at hupdate
      exact ⟨_, copy, rfl, hbalanced, hupdate, hpage, hfree, hcount⟩

/-- Making a shared page private takes a frame if it has to, and its process
sees nothing of it but that the page may be written. -/
theorem makePrivate_cases (h : Balanced total reserved m.pool (m.space.table :: others))
    {entry : PageEntry} (hlookup : m.space.table.lookup p = some entry) :
    (m.pool.freeCount = 0 ∧ m.makePrivate p entry = ⟨.error .outOfMemory, m⟩) ∨
    ∃ after frame, m.makePrivate p entry = ⟨.ok (), after⟩ ∧
      Balanced total reserved after.pool (after.space.table :: others) ∧
      Update m after others p ⟨m.pool.bytesOf entry.frame, true⟩ ∧
      after.space.table.lookup p = some ⟨frame, entry.flags.owned.normalized⟩ := by
  by_cases hone : m.pool.refCount entry.frame = 1
  · obtain ⟨after, hrun, hafter, hupdate, hpage, -⟩ := makePrivate_of_sole h hlookup hone
    exact Or.inr ⟨after, entry.frame, hrun, hafter, hupdate, hpage⟩
  · refine (makePrivate_of_shared h hlookup hone).imp_right ?_
    rintro ⟨after, copy, hrun, hafter, hupdate, hpage, -⟩
    exact ⟨after, copy, hrun, hafter, hupdate, hpage⟩

theorem translate_of_lookup {a : VirtAddr} {entry : PageEntry}
    (hlookup : m.space.table.lookup a.page = some entry) :
    m.space.table.translate a = some ((FrameId.base entry.frame).add a.place) := by
  unfold PageTable.translate PageTable.frame?
  rw [hlookup]
  rfl

/-- The bytes of a frame lie in memory. -/
theorem inRange_of_lt {pool : FramePool} {f : FrameId} (hlt : f < pool.total)
    (i : Fin pageSize) : pool.inRange ((FrameId.base f).add i) 1 = true := by
  have hend := Nat.mul_le_mul_right pageSize (Nat.succ_le_of_lt hlt)
  rw [Nat.succ_mul] at hend
  have hi := i.isLt
  unfold FramePool.inRange FramePool.byteSize
  apply decide_eq_true
  simp only [FrameId.base, PhysAddr.add]
  omega

/-- A read answers with the byte of the page. -/
theorem readByte_eq (h : Balanced total reserved m.pool (m.space.table :: others))
    (a : VirtAddr) :
    m.readByte a =
      match m.space.table.page? m.pool a.page with
      | none => .error (.pageFault a)
      | some page => .ok (page.read a) := by
  unfold readByte PageTable.page?
  cases hlookup : m.space.table.lookup a.page with
  | none =>
      have htranslate : m.space.table.translate a = none := by
        unfold PageTable.translate PageTable.frame?
        rw [hlookup]
        rfl
      rw [htranslate, Option.map_none]
  | some entry =>
      have hlt : entry.frame < m.pool.total := by
        rw [h.backs.total_eq]
        exact h.backs.lt_total (frame_mem_namedFrames List.mem_cons_self hlookup)
      rw [translate_of_lookup hlookup, Option.map_some]
      dsimp only
      unfold FramePool.readByte
      rw [if_pos (inRange_of_lt hlt _), ← FramePool.getElem_bytesOf _ _ a.place.isLt]
      rfl

/-- A byte is stored in a page that may be written directly. -/
theorem storeByte_of_writable (h : Balanced total reserved m.pool (m.space.table :: others))
    {a : VirtAddr} {entry : PageEntry} (hlookup : m.space.table.lookup a.page = some entry)
    (hwritable : entry.flags.writable = true) (byte : UInt8) :
    ∃ after, m.storeByte a byte = ⟨.ok (), after⟩ ∧
      Balanced total reserved after.pool (after.space.table :: others) ∧
      Update m after others a.page
        (Page.write ⟨m.pool.bytesOf entry.frame, entry.flags.mayWrite⟩ a byte) := by
  have hmem := frame_mem_namedFrames (List.mem_cons_self (l := others)) hlookup
  have hlt : entry.frame < m.pool.total := by
    rw [h.backs.total_eq]
    exact h.backs.lt_total hmem
  have halone := (h.backs_page hlookup).not_mem_of_refCount_eq_one
    (h.refCount_of_writable List.mem_cons_self hlookup hwritable)
  have hp := h.tidy.lt_maxPages m.space.table List.mem_cons_self a.page entry hlookup
  have hframe := FramePool.frame_add_base entry.frame a.place
  have hbytes : ∀ g,
      (m.pool.setByte ((FrameId.base entry.frame).add a.place) byte).bytesOf g =
        if entry.frame = g then (m.pool.bytesOf g).set a.place byte else m.pool.bytesOf g := by
    intro g
    rw [FramePool.bytesOf_setByte (by rw [hframe]; exact hlt)]
    simp only [hframe, FramePool.offset_add_base]
  unfold storeByte
  rw [translate_of_lookup hlookup]
  dsimp only
  unfold FramePool.writeByte
  rw [if_pos (inRange_of_lt hlt _)]
  obtain ⟨hbalanced, hupdate⟩ := update_of_alone (m := m) h.tidy rfl hp hlookup
    (fun q _ => rfl) halone ((h.backs_page hlookup).setByte _ byte)
    fun f hne => (hbytes f).trans (if_neg hne)
  rw [hbytes, if_pos rfl] at hupdate
  exact ⟨_, rfl, hbalanced, hupdate⟩

/-- A write faults on a page that is not there or is read-only, is refused when
the copy it needs cannot be made, and otherwise changes one byte of one page. -/
theorem writeByte_cases (h : Balanced total reserved m.pool (m.space.table :: others))
    (a : VirtAddr) (byte : UInt8) :
    (m.space.table.page? m.pool a.page = none ∧
      m.writeByte a byte = ⟨.error (.pageFault a), m⟩) ∨
    ∃ page, m.space.table.page? m.pool a.page = some page ∧
      ((page.writable = false ∧ m.writeByte a byte = ⟨.error (.permissionFault a), m⟩) ∨
      (page.writable = true ∧
        (m.pool.freeCount = 0 ∧ m.writeByte a byte = ⟨.error .outOfMemory, m⟩ ∨
          ∃ after, m.writeByte a byte = ⟨.ok (), after⟩ ∧
            Balanced total reserved after.pool (after.space.table :: others) ∧
            Update m after others a.page (page.write a byte)))) := by
  unfold writeByte PageTable.page?
  cases hlookup : m.space.table.lookup a.page with
  | none => exact Or.inl ⟨Option.map_none _, rfl⟩
  | some entry =>
      right
      refine ⟨⟨m.pool.bytesOf entry.frame, entry.flags.mayWrite⟩, Option.map_some _ _, ?_⟩
      dsimp only
      cases hcow : entry.flags.copyOnWrite with
      | true =>
          have hmay : entry.flags.mayWrite = true := by
            simp [PageFlags.mayWrite, hcow]
          right
          refine ⟨hmay, ?_⟩
          rw [if_pos rfl]
          rcases makePrivate_cases h hlookup with
            ⟨hfull, hrun⟩ | ⟨mid, frame, hrun, hmid, hupdate, hpage⟩
          · left
            rw [hrun]
            exact ⟨hfull, rfl⟩
          · right
            have hown := hupdate.page_self
            unfold PageTable.page? at hown
            rw [hpage, Option.map_some, Option.some_inj] at hown
            obtain ⟨after, hstore, hafter, hnext⟩ :=
              storeByte_of_writable hmid hpage (by rfl) byte
            rw [hown] at hnext
            rw [hrun, hmay]
            exact ⟨after, hstore, hafter, hupdate.trans hnext⟩
      | false =>
          rw [if_neg (by simp)]
          cases hwritable : entry.flags.writable with
          | true =>
              have hmay : entry.flags.mayWrite = true := by
                simp [PageFlags.mayWrite, hwritable]
              right
              refine ⟨hmay, Or.inr ?_⟩
              rw [if_pos rfl]
              exact storeByte_of_writable h hlookup hwritable byte
          | false =>
              left
              rw [if_neg (by simp)]
              simp [PageFlags.mayWrite, hwritable, hcow]

end Memory

end Kernelet
