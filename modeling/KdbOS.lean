import KdbOS.Library.Word
import KdbOS.Library.ByteMemory
import KdbOS.Library.PagedWords
import KdbOS.Library.Ring
import KdbOS.Library.Runs
import KdbOS.Klibc.Kstring
import KdbOS.Klibc.Kmemory
import KdbOS.Library.Blocks
import KdbOS.Klibc.HeapBlocks
import KdbOS.Klibc.HeapLayout
import KdbOS.Klibc.HeapRuns
import KdbOS.Klibc.HeapTiling
import KdbOS.Klibc.HeapCoalescing
import KdbOS.Arch.Paging
import KdbOS.Kernel.Boot
import KdbOS.Kernel.IdentityMap
import KdbOS.Kernel.BootSizes
import KdbOS.Ds.List
import KdbOS.Ds.ListChains
import KdbOS.Ds.ListRuns
import KdbOS.Ds.ListErrors
import KdbOS.Ds.ListProperties
import KdbOS.Ds.Bitmap
import KdbOS.Memory.Pmm
import KdbOS.Memory.PmmProperties
import KdbOS.Proc.Pcb
import KdbOS.Proc.Sched
import KdbOS.Proc.SchedQueues
import KdbOS.Proc.SchedRuns
import KdbOS.Proc.SchedInvariant
import KdbOS.Proc.SchedTimer
import KdbOS.Proc.SchedProperties
import KdbOS.Proc.SchedIdle
import KdbOS.Arch.Io
import KdbOS.Arch.Isr
import KdbOS.Library.Loops
import KdbOS.Memory.PmmRuns
import KdbOS.Vterm.Vterm
import KdbOS.Vterm.VtermOperations
import KdbOS.Drivers.Keyboard
import KdbOS.Vterm.VtermBounds
import KdbOS.Drivers.KeyboardBounds
import KdbOS.Drivers.KeyboardShift
import KdbOS.Library.TextRows
import KdbOS.Vterm.VtermDisplay
import KdbOS.Vterm.VtermLayout
import KdbOS.Vterm.VtermLinear
import KdbOS.Arch.Mmu
import KdbOS.Arch.Cpu
import KdbOS.Memory.FrameAllocator
import KdbOS.Memory.Vmm
import KdbOS.Memory.VmmOperations
import KdbOS.Memory.PageStructures
import KdbOS.Memory.BootPaging
import KdbOS.Memory.VmmNewPage
import KdbOS.Memory.VmmMapFrame
import KdbOS.Memory.VmmAccesses
import KdbOS.Memory.AddressSpaces
import KdbOS.Memory.KernelRoom
import KdbOS.Memory.VmmNoPage
import KdbOS.Proc.SchedAging
import KdbOS.Proc.SchedPair
import KdbOS.Proc.SchedWaiting
import KdbOS.Memory.PagePermissions
import KdbOS.Memory.VmmInvariant
import KdbOS.Memory.LowTables
import KdbOS.Memory.VmmCreate
import KdbOS.Memory.CodePages
import KdbOS.Memory.LastFrames
import KdbOS.Memory.VmmRuns
import KdbOS.Memory.PagesInOrder
import KdbOS.Proc.ContextSwitch
import KdbOS.Proc.ProcessStack
import KdbOS.Proc.ProcessRuns
import KdbOS.Proc.DirectAccesses
import KdbOS.Proc.ProcessStart
import KdbOS.Proc.ProcessContexts
import KdbOS.Proc.MappedFrames
import KdbOS.Kernel.Interrupts
import KdbOS.Kernel.HeapMapped
import KdbOS.Proc.SwitchRuns
import KdbOS.Proc.CreatePcb
import KdbOS.Proc.ProcessSpaces
import KdbOS.Proc.Ownership
import KdbOS.Memory.Stock
import KdbOS.Proc.CreatePcbReturns
import KdbOS.Proc.Isolation
import KdbOS.Proc.ProgramImage
import KdbOS.Proc.SchedProgress
import KdbOS.Arch.Descriptors
import KdbOS.Arch.InterruptStubs
import KdbOS.Arch.Pic
import KdbOS.Library.Numerals
import KdbOS.Vterm.VtermNumbers
import KdbOS.Kernel.Panic
import KdbOS.Kernel.PanicReport
import KdbOS.Vterm.VtermPorts
import KdbOS.Drivers.KeyboardTyping
import KdbOS.Klibc.HeapFirstFit
import KdbOS.Library.Interleaving
import KdbOS.Kernel.BootImage
import KdbOS.Kernel.Programs
import KdbOS.Kernel.ProgramLoads
import KdbOS.Kernel.ProgramRuns
import KdbOS.Proc.CreationProgress
import KdbOS.Vterm.VtermCursor
