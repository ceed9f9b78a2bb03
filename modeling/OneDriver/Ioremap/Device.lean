import OneDriver.CInt
import OneDriver.Pages

set_option autoImplicit false

namespace OneDriver.Ioremap

-- cpu_has_64bit_addresses is 0: an unsigned long, a phys_t and a pointer are one
-- word of 32 bits, and NULL is 0.
abbrev Word := BitVec 32

def cacheUncached : Word := 2 <<< 9

def kseg1 : Word := 0xa0000000

def pageShift : Nat := 12

def pageSize : Word := 1 <<< pageShift

def pageMask : Word := ~~~((1 <<< pageShift) - 1)

def cacBase : Word := 0x80000000

def physOffset : Word := 0

def pageOffset : Word := cacBase + physOffset

def cphysaddr (a : Word) : Word := a &&& 0x1fffffff

def ckseg1addr (a : Word) : Word := cphysaddr a ||| kseg1

def pa (x : Word) : Word := x - pageOffset + physOffset

def va (x : Word) : Word := x + pageOffset - physOffset

def virtToPhys (address : Word) : Word := pa address

def physToVirt (address : Word) : Word := address + pageOffset - physOffset

def pfnUp (x : Word) : Word := (x + pageSize - 1) >>> pageShift

def pfnDown (x : Word) : Word := x >>> pageShift

def archPfnOffset : Word := pfnUp physOffset

-- A pointer to a struct page is its index in mem_map.
def pfnToPage (pfn : Word) : Nat := (pfn - archPfnOffset).toNat

def virtToPage (kaddr : Word) : Nat := pfnToPage (pfnDown (virtToPhys kaddr))

def alignKernel (x a : Word) : Word := (x + (a - 1)) &&& ~~~(a - 1)

def pageAlign (addr : Word) : Word := alignKernel addr pageSize

def isLow512 (addr : Word) : Bool := decide (addr &&& ~~~0x1fffffff = 0)

structure VmStruct where
  addr : Word
  size : Word
deriving DecidableEq, Repr

-- `memMap` holds the PG_reserved bit of each struct page. Frames are entered in
-- the page table with the cache attribute they are mapped under.
structure MemState where
  memMap : List Bool
  highMemory : Word
  areas : List VmStruct
  table : PageTable Word

inductive MemStep where
  | highMemory
  | pageFlags (page : Nat)
  | getVmArea
  | remapAreaPages
  | vunmap
deriving DecidableEq, Repr

inductive MemFault where
  | beyondMemMap
  | noArea
deriving DecidableEq, Repr

abbrev MemProg := Prog MemStep MemState MemFault

def pageReserved (page : Nat) : MemProg Bool :=
  .access (.pageFlags page) fun s => match s.memMap[page]? with
    | some reserved => .ok (reserved, s)
    | none => .error .beyondMemMap

def storePageFlag (reserved : Bool) (page : Nat) : MemProg Unit :=
  .access (.pageFlags page) fun s =>
    if page < s.memMap.length then .ok ((), { s with memMap := s.memMap.set page reserved }) else .error .beyondMemMap

def setPageReserved (page : Nat) : MemProg Unit := storePageFlag true page

def clearPageReserved (page : Nat) : MemProg Unit := storePageFlag false page

-- The bottom of KSEG2, above the segments that need no page table.
def vmallocStart : Nat := 0xc0000000

-- What the kernel's allocator of virtual areas answers, given those that are taken.
structure Vmalloc where
  place : List VmStruct → Word → Option Word
  refusesEmpty : ∀ areas, place areas 0 = none
  aligned : ∀ areas size addr, place areas size = some addr → 4096 ∣ addr.toNat
  above : ∀ areas size addr, place areas size = some addr → vmallocStart ≤ addr.toNat
  fits : ∀ areas size addr, place areas size = some addr → addr.toNat + size.toNat ≤ 2 ^ 32
  apart : ∀ areas size addr area, place areas size = some addr → area ∈ areas →
    addr.toNat + size.toNat ≤ area.addr.toNat ∨ area.addr.toNat + area.size.toNat ≤ addr.toNat

def getVmArea (vm : Vmalloc) (size : Word) : MemProg (Option Word) :=
  .act .getVmArea (fun _ => true)
    (fun s => match vm.place s.areas size with
      | some addr => { s with areas := ⟨addr, size⟩ :: s.areas }
      | none => s)
    fun s => .ret (vm.place s.areas size)

-- `stops` is the number of pages after which it runs out of page tables.
def remapAreaPages (addr phys size flags : Word) (stops : Option Nat) : MemProg Int := do
  let count := size.toNat / 4096
  Prog.modify .remapAreaPages fun s =>
    { s with table := s.table.install (addr.toNat / 4096) (phys.toNat / 4096) (min (stops.getD count) count) flags }
  pure (if stops.isSome then -enomem else 0)

def vunmap (addr : Word) : MemProg Unit :=
  .access .vunmap fun s => match s.areas.find? (·.addr = addr) with
    | some area => .ok ((), { s with
        areas := s.areas.erase area
        table := s.table.clear (addr.toNat / 4096) (area.size.toNat / 4096) })
    | none => .error .noArea

def fixupBigphysAddr (physAddr _size : Word) : Word := physAddr

def platIoremap (_offset _size _flags : Word) : Word := 0

-- for(page = virt_to_page(t_addr); page <= virt_to_page(t_end); page++)
def allReserved (page last : Nat) : MemProg Bool :=
  if page ≤ last then do
    let reserved ← pageReserved page
    if reserved then allReserved (page + 1) last else pure false
  else pure true
termination_by last + 1 - page

-- "Don't allow anybody to remap normal RAM that we're using.."
def mayRemap (physAddr size : Word) : MemProg Bool := do
  let highMemory ← Prog.look .highMemory MemState.highMemory
  if physAddr < virtToPhys highMemory then
    let tAddr := va physAddr
    let tEnd := tAddr + (size - 1)
    allReserved (virtToPage tAddr) (virtToPage tEnd)
  else pure true

def ioremapPages (vm : Vmalloc) (physAddr lastAddr flags : Word) (stops : Option Nat) : MemProg Word := do
  let offset := physAddr &&& ~~~pageMask
  let physAddr := physAddr &&& pageMask
  let size := pageAlign (lastAddr + 1) - physAddr
  let area ← getVmArea vm size
  match area with
  | none => pure 0
  | some addr => do
      let failed ← remapAreaPages addr physAddr size flags stops
      if failed ≠ 0 then do
        vunmap addr
        pure 0
      else pure (offset + addr)

-- __ioremap
def ioremapUnder (vm : Vmalloc) (physAddr size flags : Word) (stops : Option Nat) : MemProg Word :=
  let physAddr := fixupBigphysAddr physAddr size
  let lastAddr := physAddr + size - 1
  if size = 0 ∨ lastAddr < physAddr then pure 0
  else if isLow512 physAddr ∧ isLow512 lastAddr ∧ flags = cacheUncached then pure (ckseg1addr physAddr)
  else do
    let free ← mayRemap physAddr size
    if free then ioremapPages vm physAddr lastAddr flags stops else pure 0

-- `constant` is what __builtin_constant_p tells of the three arguments.
def ioremapMode (vm : Vmalloc) (constant : Bool) (offset size flags : Word) (stops : Option Nat) : MemProg Word :=
  let addr := platIoremap offset size flags
  if addr ≠ 0 then pure addr
  else if constant then
    let physAddr := fixupBigphysAddr offset size
    let lastAddr := physAddr + size - 1
    if size = 0 ∨ lastAddr < physAddr then pure 0
    else if isLow512 physAddr ∧ isLow512 lastAddr ∧ flags = cacheUncached then pure (ckseg1addr physAddr)
    else ioremapUnder vm offset size flags stops
  else ioremapUnder vm offset size flags stops

def ioremap (vm : Vmalloc) (constant : Bool) (offset size : Word) (stops : Option Nat) : MemProg Word :=
  ioremapMode vm constant offset size cacheUncached stops

-- Where the CPU goes for an address of KSEG1 or above: the low 512 MB as they
-- are, or through the page table.
def MemState.reaches (s : MemState) (a : Nat) : Option (Nat × Word) :=
  if a < 0xa0000000 then none
  else if a < vmallocStart then some (a - 0xa0000000, cacheUncached)
  else s.table.reaches 4096 a

end OneDriver.Ioremap
