import LightOS.Lib.Machine
import LightOS.Lib.Ia32
import LightOS.Lib.Word32
import LightOS.Lib.Blocks
import LightOS.Syscall.Wrapper
import LightOS.Filesystem.Image
import LightOS.Filesystem.Lookup
import LightOS.Filesystem.Strings
import LightOS.Filesystem.Read
import LightOS.Filesystem.ExactLookup
import LightOS.Filesystem.ExactRead
import LightOS.Descriptor.Pcb
import LightOS.Descriptor.Table
import LightOS.Descriptor.Frame
import LightOS.Lib.Refinement
import LightOS.Descriptor.OpenFiles
import LightOS.Descriptor.Refines
import LightOS.Descriptor.Leak
import LightOS.Descriptor.SequentialRead
import LightOS.Descriptor.Listing
import LightOS.Descriptor.Position
import LightOS.Descriptor.LoaderPath
import LightOS.Lib.Stacks
import LightOS.Kernel.Paging
import LightOS.Kernel.Screen
import LightOS.Kernel.Process
import LightOS.Kernel.Execute
import LightOS.Kernel.Console
import LightOS.Kernel.Mapping
import LightOS.Kernel.Effects
import LightOS.Kernel.Shows
import LightOS.Kernel.Switching
import LightOS.Kernel.Outcome
import LightOS.Kernel.Soundness
import LightOS.Kernel.Boot
import LightOS.Kernel.Screens
import LightOS.Kernel.Sessions
import LightOS.Kernel.Stack
import LightOS.Kernel.Forest
import LightOS.Kernel.RoundRobin
import LightOS.Kernel.Contexts
import LightOS.Kernel.UserMemory
import LightOS.Kernel.Command
import LightOS.Kernel.Arguments
import LightOS.Kernel.Video
import LightOS.Kernel.Vidmap
import LightOS.Kernel.Preemption
import LightOS.Kernel.Strands
import LightOS.Kernel.Weaving
import LightOS.Kernel.Statements
import LightOS.Kernel.Interleaving
import LightOS.Kernel.Turns
import LightOS.Kernel.Lifetimes
import LightOS.Kernel.Counter
import LightOS.Kernel.ArgumentBuffer
import LightOS.Kernel.Uninterrupted
import LightOS.Lib.ByteMemory
import LightOS.Lib.LineEditor
import LightOS.Terminal.Keyboard
import LightOS.Terminal.Read
import LightOS.Terminal.Bounds
import LightOS.Terminal.Delivery
import LightOS.Terminal.Editing
import LightOS.Terminal.Answers
import LightOS.Lib.Countdown
import LightOS.Rtc.Driver
import LightOS.Rtc.Waiting
import LightOS.Rtc.Rates
import LightOS.Lib.Lockstep
import LightOS.Terminal.Settled
import LightOS.Terminal.Alike
import LightOS.Terminal.History
import LightOS.Filesystem.BlockList
import LightOS.Kernel.Addressable
import LightOS.Kernel.Parsing
import LightOS.Kernel.ArgumentLimit
import LightOS.Kernel.ElfOnly
import LightOS.Kernel.Loading
import LightOS.Lib.Teletype
import LightOS.Kernel.Cells
import LightOS.Kernel.Teletype
import LightOS.Kernel.Cursor
import LightOS.Lib.Lines
import LightOS.Programs.Support
import LightOS.Programs.Grep
import LightOS.Programs.GrepLines
import LightOS.Programs.GrepFile
import LightOS.Programs.GrepMatches
import LightOS.Lib.Since
import LightOS.Terminal.Modifiers
import LightOS.Lib.Assembly
import LightOS.Library.Memory
import LightOS.Lib.Numeral
import LightOS.Lib.Buffer
import LightOS.Lib.Rounds
import LightOS.Library.Numbers
import LightOS.Library.Format
import LightOS.Library.Printf
import LightOS.Lib.Bitfields
import LightOS.Lib.Tables
import LightOS.Interrupt.Pic
import LightOS.Interrupt.Service
import LightOS.Interrupt.Urgency
import LightOS.Interrupt.Gates
import LightOS.Lib.Ia32Gates
import LightOS.Interrupt.Linkage
import LightOS.Interrupt.Resumption
import LightOS.Kernel.PageWords
import LightOS.Kernel.PageRuns
import LightOS.Interrupt.Segments
import LightOS.Lib.StringMoves
import LightOS.Library.Moves
import LightOS.Lib.Interaction
import LightOS.Programs.Session
import LightOS.Programs.Cat
import LightOS.Programs.Served
import LightOS.Programs.Shell
import LightOS.Lib.Parts
import LightOS.Programs.Terminals
import LightOS.Rtc.Chip
