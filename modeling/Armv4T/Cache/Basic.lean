import Armv4T.Cache.Layout
import Armv4T.Cache.Page

/-!
# The instruction cache

The cache holds decoded instructions by address and set. It is direct-mapped: each address has one
slot, an insertion replaces what was there, and a look-up succeeds only for the address that was
inserted last. References to entries are checked against the generation of their page.
-/

namespace Armv4T

/-- The pages of one region. A page is created when it is first used. -/
structure CacheRegion where
  layout : Cache.Layout
  pages : Array (Option Cache.Page)
  deriving Repr, Inhabited

namespace CacheRegion

/-- A region without pages. -/
def ofLayout (layout : Cache.Layout) : CacheRegion :=
  ⟨layout, Array.replicate layout.pageCount none⟩

/-- Changes the page at an index. -/
def modifyPage (r : CacheRegion) (index : Nat) (f : Option Cache.Page → Option Cache.Page) :
    CacheRegion :=
  let ⟨layout, pages⟩ := r
  ⟨layout, pages.modify index f⟩

end CacheRegion

/-- Sixteen regions, and the number of instructions ever inserted. -/
structure InstructionCache where
  regions : Array CacheRegion
  compiled : UInt64
  deriving Repr, Inhabited

namespace InstructionCache

open Cache

/-- An empty cache with the given layout in every region. -/
def ofLayout (layout : Layout) : InstructionCache :=
  ⟨Array.replicate regionCount (.ofLayout layout), 0⟩

/-- An empty cache with the default layout. -/
def empty : InstructionCache := ofLayout .default

/-- The layout of the region an address falls in. -/
def layout (c : InstructionCache) (address : Word) : Layout :=
  (c.regions[regionIndex address]?.map CacheRegion.layout).getD .default

/-- Changes a region. -/
def modifyRegion (c : InstructionCache) (index : Nat) (f : CacheRegion → CacheRegion) :
    InstructionCache :=
  let ⟨regions, compiled⟩ := c
  ⟨regions.modify index f, compiled⟩

/-- Changes the page of a region. -/
def modifyPage (c : InstructionCache) (region page : Nat)
    (f : Option Page → Option Page) : InstructionCache :=
  c.modifyRegion region fun r => r.modifyPage page f

/-- The page of a region, if it has been created. -/
def page? (c : InstructionCache) (region page : Nat) : Option Page :=
  (c.regions[region]?.bind (·.pages[page]?)).join

/-- Replaces the layout of a region and drops its pages. The low four bits of its number count. -/
def configure (c : InstructionCache) (region : Nat) (layout : Layout) : InstructionCache :=
  c.modifyRegion (region % regionCount) fun _ => .ofLayout layout

/-- The reference to the entry of an address and set in the given generation. -/
def idAt (c : InstructionCache) (address : Word) (set : InstrSet) (generation : Word) :
    HandleId :=
  let layout := c.layout address
  { region := regionIndex address
    page := layout.pageIndex address
    slot := layout.slotIndex address set
    set
    generation }

/-- Hands out the page of an address: it is created on its first use and emptied if it was
invalid. -/
def touch (c : InstructionCache) (address : Word) : InstructionCache :=
  c.modifyPage (regionIndex address) ((c.layout address).pageIndex address) fun p =>
    some (p.getD {}).refresh

/-- The page of an address, as it is after it has been handed out. -/
def pageAt (c : InstructionCache) (address : Word) : Page :=
  ((c.page? (regionIndex address) ((c.layout address).pageIndex address)).getD {}).refresh

/-- The entry of an address and set, if the address is the one inserted last into its slot. -/
def find? (c : InstructionCache) (address : Word) (set : InstrSet) :
    Option (HandleId × Handle) :=
  let page := c.pageAt address
  match page.get? set ((c.layout address).slotIndex address set) with
  | some h => if h.address = address then some (c.idAt address set page.generation, h) else none
  | none => none

/-- Looks an address up, handing out its page. -/
def lookup (c : InstructionCache) (address : Word) (set : InstrSet) :
    Option (HandleId × Handle) × InstructionCache :=
  let found := c.find? address set
  (found, c.touch address)

/-- Inserts a handle into the slot of its address, and gives the reference to it. -/
def insert (c : InstructionCache) (h : Handle) : HandleId × InstructionCache :=
  let layout := c.layout h.address
  let id := c.idAt h.address h.set (c.pageAt h.address).generation
  let c := c.modifyPage id.region id.page fun p =>
    some ((p.getD {}).refresh.put h.set id.slot (layout.slotCount h.set) h)
  (id, { c with compiled := c.compiled + 1 })

/-- Whether a reference still points into the generation of its page that it was made for. -/
def isLive (c : InstructionCache) (id : HandleId) : Bool :=
  match c.page? id.region id.page with
  | some p => !p.invalid && p.generation == id.generation
  | none => false

/-- The handle of a live reference. -/
def get? (c : InstructionCache) (id : HandleId) : Option Handle :=
  match c.page? id.region id.page with
  | some p => if p.invalid || p.generation != id.generation then none else p.get? id.set id.slot
  | none => none

/-- Records the successor of an entry, unless the reference to it is stale. -/
def link (c : InstructionCache) (id next : HandleId) : InstructionCache :=
  if c.isLive id then
    c.modifyPage id.region id.page fun p => p.map fun p => p.link id.set id.slot next
  else c

/-- Marks the page of an address invalid, if it has been created. -/
def invalidatePage (c : InstructionCache) (address : Word) : InstructionCache :=
  c.modifyPage (regionIndex address) ((c.layout address).pageIndex address) fun p =>
    p.map Page.invalidate

/-- The start of the page after the one of an address. -/
def nextPage (c : InstructionCache) (address : Word) : Word :=
  let step := (1 : Word) <<< (c.layout address).pageBits
  Word.alignDown address step + step

/-- Invalidates the pages from the one at `cursor` to the one of `last`, or to the end of the
address space. -/
def invalidateFrom (c : InstructionCache) (cursor last : Word) : InstructionCache :=
  let next := c.nextPage cursor
  let marked := c.invalidatePage cursor
  if next ≤ cursor ∨ next > last then marked else marked.invalidateFrom next last
termination_by UInt32.size - cursor.toNat
decreasing_by
  rename_i h
  have hlt : cursor < c.nextPage cursor := UInt32.not_le.mp fun hle => h (.inl hle)
  have := UInt32.lt_iff_toNat_lt.mp hlt
  have := (c.nextPage cursor).toNat_lt_size
  omega

/-- Marks every created page that overlaps the `len` bytes from an address invalid. -/
def invalidate (c : InstructionCache) (address len : Word) : InstructionCache :=
  if len = 0 then c
  else
    let page := Word.alignDown address (1 <<< (c.layout address).pageBits)
    c.invalidateFrom page (address + (len - 1))

/-- Marks every created page invalid. -/
def clear (c : InstructionCache) : InstructionCache :=
  let ⟨regions, compiled⟩ := c
  ⟨regions.map fun ⟨layout, pages⟩ => ⟨layout, pages.map (·.map Page.invalidate)⟩, compiled⟩

end InstructionCache

end Armv4T
