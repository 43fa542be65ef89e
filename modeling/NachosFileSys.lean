import NachosFileSys.FileSystem
import NachosFileSys.Deallocation
import NachosFileSys.Contents
import NachosFileSys.Effects
import NachosFileSys.Volume
import NachosFileSys.Tables
import NachosFileSys.Names
import NachosFileSys.Handles
import NachosFileSys.Paths
import NachosFileSys.Entries
import NachosFileSys.Creation
import NachosFileSys.MakeDirectory
import NachosFileSys.Removal
import NachosFileSys.Opening
import NachosFileSys.Formatting
import NachosFileSys.Writing
import NachosFileSys.Lib.Runs
import NachosFileSys.Outcomes
import NachosFileSys.System
import NachosFileSys.Room
import NachosFileSys.FailedOperations
import NachosFileSys.Ownership
import NachosFileSys.Findability
import NachosFileSys.OpenCounts
import NachosFileSys.Space
import NachosFileSys.Lib.Threads
import NachosFileSys.Threads
import NachosFileSys.Exclusion
import NachosFileSys.RoundTrips
import NachosFileSys.PartialEntries
import NachosFileSys.Navigation
import NachosFileSys.FileTable
import NachosFileSys.Descriptors
import NachosFileSys.SwapFile
import NachosFileSys.Machine
import NachosFileSys.Paging
import NachosFileSys.VirtualMemory
import NachosFileSys.DemandPaging
import NachosFileSys.Evictions
import NachosFileSys.AddrSpace
import NachosFileSys.SystemCalls
import NachosFileSys.Coherence
import NachosFileSys.Views
import NachosFileSys.UserWrites
import NachosFileSys.Synch
import NachosFileSys.Monitor
import NachosFileSys.Conditions
import NachosFileSys.SynchList
import NachosFileSys.SynchDisk
import NachosFileSys.Registers
import NachosFileSys.Scheduler
import NachosFileSys.UserContext
import NachosFileSys.Interrupt
import NachosFileSys.Traps
import NachosFileSys.Transfers
import NachosFileSys.Alu
import NachosFileSys.Multiplication
import NachosFileSys.Unaligned
import NachosFileSys.Exhaustion
import NachosFileSys.PageTables
import NachosFileSys.Translators
import NachosFileSys.SeekWrites
import NachosFileSys.Network
import NachosFileSys.Post
import NachosFileSys.Coff2noff
import NachosFileSys.Goals
import NachosFileSys.MailBoxes
import NachosFileSys.Sending
import NachosFileSys.PostOffice
import NachosFileSys.DirectoryMap
import NachosFileSys.Growth
import NachosFileSys.Headers
import NachosFileSys.Spans
import NachosFileSys.FrameTable
import NachosFileSys.Console
import NachosFileSys.CutEntries
import NachosFileSys.Composition
import NachosFileSys.Printing
import NachosFileSys.Lib.Trees
import NachosFileSys.Listing
import NachosFileSys.FullPath
import NachosFileSys.Joining
import NachosFileSys.Lib.Interference
import NachosFileSys.Ledger
import NachosFileSys.Extensions
import NachosFileSys.Interleavings
import NachosFileSys.StaleMap
import NachosFileSys.StaleHandles
import NachosFileSys.RegisterFile
import NachosFileSys.BitmapSet
import NachosFileSys.Lib.Chains
import NachosFileSys.Lib.Refinement
import NachosFileSys.LinkedList
import NachosFileSys.SortedList
import NachosFileSys.Lib.Classes
import NachosFileSys.HashTable
import NachosFileSys.Isolation
import NachosFileSys.Progress
import NachosFileSys.Completion
import NachosFileSys.ConsoleOutput
import NachosFileSys.Waiting
import NachosFileSys.Devices
import NachosFileSys.DiskTiming
import NachosFileSys.TimeSlice
import NachosFileSys.Architecture
