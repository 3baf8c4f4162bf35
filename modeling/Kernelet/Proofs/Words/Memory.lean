import Kernelet.Proofs.Memory.Balance
import Kernelet.Proofs.Memory.FirstFit
import Kernelet.Words.Memory

/-!
An address space on words does what it does without a limit, as long as its memory is no longer
than a word can count (`serve?_eq`, `fork?_eq`). The reason is another one for each calculation.
A frame that is handed out was free, so that there is one to take off. A frame that a table
names lies in memory, and so do its bytes, none of which has an address that no word holds.

All of it rests on the balance of pool and tables, which every operation keeps.
-/

namespace Kernelet

namespace Word

theorem add?_eq {a b : Nat} (h : a + b < UInt64.size) : add? a b = some (a + b) :=
  if_pos h

theorem mul?_eq {a b : Nat} (h : a * b < UInt64.size) : mul? a b = some (a * b) :=
  if_pos h

theorem sub?_eq {a b : Nat} (h : b ≤ a) : sub? a b = some (a - b) :=
  if_pos h

theorem div?_eq {a b : Nat} (h : b ≠ 0) : div? a b = some (a / b) :=
  if_neg h

end Word

/-- The bytes of a frame in memory lie within memory. -/
theorem FrameId.base_add_lt {f total offset : Nat} (h : f < total) (hoffset : offset < pageSize) :
    f * pageSize + offset < total * pageSize := by
  have hend := Nat.mul_le_mul_right pageSize (Nat.succ_le_of_lt h)
  rw [Nat.succ_mul] at hend
  omega

theorem FrameId.base?_eq {f : FrameId} {total : Nat} (h : f < total)
    (hwords : total * pageSize < UInt64.size) : f.base? = some f.base := by
  have hstart := Nat.mul_lt_mul_of_pos_right h pageSize_pos
  unfold base?
  rw [Word.mul?_eq (Nat.lt_trans hstart hwords)]
  rfl

namespace FramePool

variable {pool : FramePool} {total reserved : Nat} {named : List FrameId}

theorem new?_eq (hwords : total * pageSize < UInt64.size) (reserved : Nat) :
    new? total reserved = some (new total reserved) := by
  unfold new?
  rw [Word.mul?_eq hwords, Word.sub?_eq (Nat.min_le_right reserved total)]
  rfl

/-- No word holds the size of a memory of 2^52 frames. -/
example : new? (UInt64.size / pageSize) 0 = none := rfl

/-- The frame that is handed out was one of those that are counted as free. -/
theorem Backs.allocate?_eq (h : pool.Backs total reserved named)
    (hwords : total * pageSize < UInt64.size) : pool.allocate? = some pool.allocate := by
  unfold allocate?
  cases hrun : pool.allocate with
  | error e => rfl
  | ok handed =>
      obtain ⟨f, after⟩ := handed
      obtain ⟨hlt, hfree, -⟩ := first_free_of_allocate hrun
      have hpos : 1 ≤ pool.freeCount := by
        rw [h.freeCount_eq]
        exact Finset.card_pos.mpr ⟨f, mem_freeFrames.mpr ⟨hlt, hfree⟩⟩
      have hleft := freeCount_allocate hrun
      dsimp only
      rw [Word.sub?_eq hpos, FrameId.base?_eq (h.total_eq ▸ hlt) hwords, ← hleft]
      rfl

theorem copyFrame?_eq {source target : FrameId} (hsource : source < pool.total)
    (htarget : target < pool.total) (hwords : pool.total * pageSize < UInt64.size) :
    pool.copyFrame? source target = some (pool.copyFrame source target) := by
  have hrange : pool.inRange (FrameId.base source) pageSize = true :=
    (inRange_base_iff pool source).mpr hsource
  unfold copyFrame?
  rw [FrameId.base?_eq hsource hwords, FrameId.base?_eq htarget hwords]
  dsimp only [Option.bind_eq_bind, Option.bind_some]
  rw [if_pos hrange]
  rfl

/-- No more frames are free than there are. -/
theorem Backs.stats?_eq (h : pool.Backs total reserved named)
    (hwords : total * pageSize < UInt64.size) : pool.stats? = some pool.stats := by
  have hle := freeCount_le_total h.freeCount_eq
  have hused := Nat.mul_le_mul_right pageSize (Nat.sub_le pool.total pool.freeCount)
  have hfree := Nat.mul_le_mul_right pageSize hle
  rw [← h.total_eq] at hwords
  unfold stats?
  rw [Word.sub?_eq hle, Word.mul?_eq (Nat.lt_of_le_of_lt hfree hwords)]
  dsimp only [Option.bind_eq_bind, Option.bind_some]
  rw [Word.mul?_eq (Nat.lt_of_le_of_lt hused hwords)]
  rfl

end FramePool

/-- What a table in balance with its pool maps an address to lies in memory. -/
theorem Balanced.translate?_eq {total reserved : Nat} {pool : FramePool} {tables : List PageTable}
    {table : PageTable} (h : Balanced total reserved pool tables) (hmem : table ∈ tables)
    (hwords : total * pageSize < UInt64.size) (a : VirtAddr) :
    table.translate? a = some (table.translate a) := by
  unfold PageTable.translate? PageTable.translate PageTable.frame?
  cases hlookup : table.lookup a.page with
  | none => rfl
  | some entry =>
      have hlt := h.backs.lt_total (frame_mem_namedFrames hmem hlookup)
      have haddress := Nat.lt_trans (FrameId.base_add_lt hlt a.offset_lt) hwords
      dsimp only [Option.map_some]
      rw [FrameId.base?_eq hlt hwords]
      dsimp only [Option.bind_eq_bind, Option.bind_some, FrameId.base]
      rw [Word.add?_eq haddress]
      rfl

namespace Memory

variable {total reserved : Nat} {others : List PageTable} {m : Memory}

theorem mapPage?_eq (h : Fits total reserved others m) (hwords : total * pageSize < UInt64.size)
    (a : VirtAddr) (flags : PageFlags) : m.mapPage? a flags = some (m.mapPage a flags) := by
  unfold mapPage? mapPage
  split
  · rfl
  · split
    · rw [h.backs.allocate?_eq hwords]
      cases m.pool.allocate with
      | error e => rfl
      | ok handed =>
          obtain ⟨frame, pool⟩ := handed
          cases hmap : m.space.table.map a.page frame flags with
          | error e =>
              dsimp only [Option.bind_eq_bind, Option.bind_some]
              rw [hmap]
              rfl
          | ok table =>
              dsimp only [Option.bind_eq_bind, Option.bind_some]
              rw [hmap]
              rfl
    · rfl

theorem mapPages?_eq (h : Fits total reserved others m) (hwords : total * pageSize < UInt64.size)
    (first : Nat) (flags : PageFlags) (count : Nat) :
    m.mapPages? first flags count = some (m.mapPages first flags count) := by
  induction count generalizing m first with
  | zero => rfl
  | succ count ih =>
      have hpage := mapPage_fits h (VirtAddr.ofPage first) flags
      unfold mapPages? mapPages
      rw [mapPage?_eq h hwords]
      rcases hrun : m.mapPage (VirtAddr.ofPage first) flags with ⟨_ | _, after⟩
      · rfl
      · rw [hrun] at hpage
        exact ih hpage (first + 1)

theorem growPages?_eq (h : Fits total reserved others m) (hwords : total * pageSize < UInt64.size)
    (first count : Nat) : m.growPages? first count = some (m.growPages first count) := by
  induction count generalizing m first with
  | zero => rfl
  | succ count ih =>
      have hpage := mapPage_fits h (VirtAddr.ofPage first) .userData
      unfold growPages? growPages
      rw [mapPage?_eq h hwords]
      rcases hrun : m.mapPage (VirtAddr.ofPage first) .userData with ⟨_ | _, after⟩
      · rfl
      · rw [hrun] at hpage
        exact ih hpage (first + 1)

theorem expandBrk?_eq (h : Fits total reserved others m) (hwords : total * pageSize < UInt64.size)
    (newBrk : VirtAddr) : m.expandBrk? newBrk = some (m.expandBrk newBrk) := by
  unfold expandBrk? expandBrk
  dsimp only
  split
  · rfl
  · cases newBrk.alignUp? with
    | none => rfl
    | some target =>
        dsimp only
        split
        · rfl
        · rw [growPages?_eq h hwords]
          rcases m.growPages (m.space.brk / pageSize)
            (target.page - m.space.brk / pageSize) with ⟨_ | _, after⟩
          · rfl
          · rfl

theorem readByte?_eq (h : Fits total reserved others m) (hwords : total * pageSize < UInt64.size)
    (a : VirtAddr) : m.readByte? a = some (m.readByte a) := by
  unfold readByte? readByte
  rw [Balanced.translate?_eq h List.mem_cons_self hwords]
  cases m.space.table.translate a with
  | none => rfl
  | some address => rfl

/-- The copy and what it is a copy of both lie in memory. -/
theorem makePrivate?_eq (h : Fits total reserved others m)
    (hwords : total * pageSize < UInt64.size) {p : Nat} {entry : PageEntry}
    (hlookup : m.space.table.lookup p = some entry) :
    m.makePrivate? p entry = some (m.makePrivate p entry) := by
  by_cases hone : m.pool.refCount entry.frame = 1
  · unfold makePrivate?
    rw [if_pos hone]
  unfold makePrivate? makePrivate
  rw [if_neg hone, if_neg hone, h.backs.allocate?_eq hwords]
  cases hrun : m.pool.allocate with
  | error e => rfl
  | ok handed =>
      obtain ⟨copy, pool⟩ := handed
      obtain ⟨hcopy, -⟩ := FramePool.first_free_of_allocate hrun
      have hold := h.backs.lt_total (frame_mem_namedFrames List.mem_cons_self hlookup)
      rw [← h.backs.total_eq] at hold hwords
      rw [← FramePool.total_allocate hrun] at hcopy hold hwords
      dsimp only [Option.bind_eq_bind, Option.bind_some]
      rw [FramePool.copyFrame?_eq hold hcopy hwords]
      cases pool.copyFrame entry.frame copy with
      | error e => rfl
      | ok copied =>
          dsimp only [Option.bind_some]
          cases m.space.table.map p copy entry.flags.owned with
          | error e => rfl
          | ok table => rfl

theorem storeByte?_eq (h : Fits total reserved others m) (hwords : total * pageSize < UInt64.size)
    (a : VirtAddr) (byte : UInt8) : m.storeByte? a byte = some (m.storeByte a byte) := by
  unfold storeByte? storeByte
  rw [Balanced.translate?_eq h List.mem_cons_self hwords]
  cases m.space.table.translate a with
  | none => rfl
  | some address =>
      dsimp only [Option.bind_eq_bind, Option.bind_some]
      cases m.pool.writeByte address byte with
      | error e => rfl
      | ok pool => rfl

theorem writeByte?_eq (h : Fits total reserved others m) (hwords : total * pageSize < UInt64.size)
    (a : VirtAddr) (byte : UInt8) : m.writeByte? a byte = some (m.writeByte a byte) := by
  unfold writeByte? writeByte
  cases hlookup : m.space.table.lookup a.page with
  | none => rfl
  | some entry =>
      dsimp only
      split
      · rw [makePrivate?_eq h hwords hlookup]
        rcases makePrivate_cases h hlookup with ⟨-, hrun⟩ | ⟨after, frame, hrun, hafter, -⟩
        · rw [hrun]
          rfl
        · rw [hrun]
          exact storeByte?_eq hafter hwords a byte
      · split
        · exact storeByte?_eq h hwords a byte
        · rfl

theorem readFrom?_eq (h : Fits total reserved others m) (hwords : total * pageSize < UInt64.size)
    (a : VirtAddr) (i count : Nat) : m.readFrom? a i count = some (m.readFrom a i count) := by
  induction count generalizing i with
  | zero => rfl
  | succ count ih =>
      unfold readFrom? readFrom
      cases rangeAddress a i with
      | error e => rfl
      | ok b =>
          dsimp only
          rw [readByte?_eq h hwords]
          cases m.readByte b with
          | error e => rfl
          | ok byte =>
              dsimp only [Option.bind_eq_bind, Option.bind_some]
              rw [ih]
              rfl

theorem writeFrom?_eq (h : Fits total reserved others m) (hwords : total * pageSize < UInt64.size)
    (a : VirtAddr) (i : Nat) (bytes : List UInt8) :
    m.writeFrom? a i bytes = some (m.writeFrom a i bytes) := by
  induction bytes generalizing m i with
  | nil => rfl
  | cons byte rest ih =>
      unfold writeFrom? writeFrom
      cases rangeAddress a i with
      | error e => rfl
      | ok b =>
          have hbyte := writeByte_fits h b byte
          dsimp only
          rw [writeByte?_eq h hwords]
          rcases hrun : m.writeByte b byte with ⟨_ | _, after⟩
          · rfl
          · rw [hrun] at hbyte
            exact ih hbyte (i + 1)

/-- Where every page can be shared the child loses none. -/
theorem Sharing.pages?_eq {s after : Sharing} {pages : List (Nat × PageEntry)}
    (hrun : s.pages pages = ⟨.ok (), after⟩) : s.pages? pages = some ⟨.ok (), after⟩ := by
  induction pages generalizing s with
  | nil => rw [← hrun]; rfl
  | cons x rest ih =>
      obtain ⟨p, entry⟩ := x
      unfold pages at hrun
      unfold pages?
      cases hpage : s.page p entry with
      | error e =>
          rw [hpage] at hrun
          cases hrun
      | ok next =>
          rw [hpage] at hrun
          exact ih hrun

theorem fork?_eq (h : Fits total reserved others m) : m.fork? = some m.fork := by
  have hnamed : ∀ x ∈ m.space.table.entries,
      x.2.frame ∈ namedFrames (m.space.table :: others) :=
    fun _ hx => frame_mem_namedFrames List.mem_cons_self (PageTable.mem_entries.mp hx)
  obtain ⟨pool, hrun, -⟩ := Sharing.pages_ok
    (s := ⟨m.space.table, m.space.table, m.pool⟩) h.backs hnamed
  unfold fork? fork
  dsimp only
  rw [Sharing.pages?_eq hrun, hrun]
  rfl

/-- Every request is served on words as it is without a limit. -/
theorem serve?_eq (h : Fits total reserved others m) (hwords : total * pageSize < UInt64.size)
    (request : Request) : m.serve? request = some (m.serve request) := by
  cases request with
  | map a flags =>
      rw [serve?, mapPage?_eq h hwords]
      rfl
  | expandBrk newBrk =>
      rw [serve?, expandBrk?_eq h hwords]
      rfl
  | readByte a =>
      rw [serve?, readByte?_eq h hwords]
      rfl
  | writeByte a byte =>
      rw [serve?, writeByte?_eq h hwords]
      rfl
  | readRange a length =>
      rw [serve?, readFrom?_eq h hwords]
      rfl
  | writeRange a bytes =>
      rw [serve?, writeFrom?_eq h hwords]
      rfl
  | release => rfl
  | setCode start stop => rfl
  | setData start stop => rfl

end Memory

end Kernelet
