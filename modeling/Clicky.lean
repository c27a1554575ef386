import Clicky.Memory
import Clicky.Lib.Runs
import Clicky.SharedLine
import Clicky.SignalAtomic
import Clicky.IntCon
import Clicky.Routing
import Clicky.Block
import Clicky.Ide.Identify
import Clicky.Ide.Drive
import Clicky.Ide.Controller
import Clicky.Ide.Effect
import Clicky.Ide.DataPhase
import Clicky.Ide.StatusTruth
import Clicky.Ide.Stream
import Clicky.Ide.ReadSectors
import Clicky.Ide.WriteSectors
import Clicky.Eide
import Clicky.Latch
import Clicky.Ram
import Clicky.AsanRefine
import Clicky.Mailbox
import Clicky.CpuCon
import Clicky.CfgTimer
import Clicky.Pcf5060x
import Clicky.I2c
import Clicky.I2cTxn
import Clicky.MemCon
import Clicky.Bus
import Clicky.System
import Clicky.Platform
import Clicky.Ide.Request
import Clicky.Accesses
import Clicky.DmaRun
import Clicky.Ide.Halfword
import Clicky.Ide.Interrupt
import Clicky.Ide.InterruptMask
import Clicky.Ide.DmaInterrupt
import Clicky.DmaSafety
import Clicky.Gpio
import Clicky.GpioLine
import Clicky.GpioSticky
import Clicky.Translation
import Clicky.FatalAccess
import Clicky.MailboxSignal
import Clicky.CpuWake
import Clicky.WakeUp
import Clicky.DmaTarget
import Clicky.CfgTimerRuns
import Clicky.Eapp.BundlePath
import Clicky.Eapp.Alloc
import Clicky.Eapp.Coherence
import Clicky.Eapp.Image
import Clicky.Eapp.ImageLoad
import Clicky.Eapp.Cpu
import Clicky.Eapp.Machine
import Clicky.Eapp.Schedule
import Clicky.Eapp.Interwork
import Clicky.Hd66753
import Clicky.Eapp.GlTrace
import Clicky.MemSniffer
import Clicky.Gdb
import Clicky.Eapp.Texture
import Clicky.Eapp.LiveGl
import Clicky.Eapp.FrameDraws
import Clicky.Eapp.DmaOverlay
import Clicky.Eapp.DmaPresent
import Clicky.Lib.Attempt
import Clicky.Eapp.GuestMemory
import Clicky.Eapp.TextureUpload
import Clicky.Eapp.UploadTag
import Clicky.Eapp.ResourceFresh
import Clicky.Lib.Alternate
import Clicky.Lib.Chain
import Clicky.Eapp.InputEvents
import Clicky.Eapp.InputEdges
import Clicky.Lib.Blocks
import Clicky.Hd66753Render
import Clicky.GpioLink
import Clicky.UsecTimer
import Clicky.OptoWheel
import Clicky.Eapp.Blend
import Clicky.Ide.Chs
import Clicky.Ide.Capacity
import Clicky.Permission
import Clicky.Lib.Reader
import Clicky.HleBootloader
import Clicky.Lib.Patch
import Clicky.Eapp.Trampoline
import Clicky.Lib.Lockstep
import Clicky.NullDev
import Clicky.Lib.Numeral
import Clicky.BlockCfg
import Clicky.Lib.Utf8
import Clicky.Eapp.Snapshot
import Clicky.Lib.Scan
import Clicky.Eapp.TextureTriplets
import Clicky.Lib.Span
import Clicky.Eapp.Usse
import Clicky.Lib.Sweep
import Clicky.Eapp.Flip
import Clicky.Eapp.OverlayLoop
import Clicky.Eapp.PpmHeader
import Clicky.Eapp.Ppm
import Clicky.Eapp.TextureSize
import Clicky.Eapp.VertexFetch
import Clicky.Lib.Dialogue
import Clicky.Lib.Encoding
import Clicky.Armv4t.Register
import Clicky.Armv4t.Alu
import Clicky.Armv4t.Cpu
import Clicky.Armv4t.Arm
import Clicky.Armv4t.Thumb
import Clicky.Armv4t.Transfers
import Clicky.Armv4t.Step
import Clicky.Armv4t.Effect
import Clicky.Armv4t.Run
import Clicky.Armv4t.Sync
import Clicky.Armv4t.UserMode
import Clicky.Armv4t.DataProc
import Clicky.Armv4t.Flags
import Clicky.Armv4t.Expand
import Clicky.Armv4t.Return
import Clicky.Armv4t.Stack
import Clicky.Machine
import Clicky.Lib.Routine
import Clicky.Eapp.AsyncFileIo
import Clicky.Eapp.FileRequests
import Clicky.Eapp.FileRuns
import Clicky.Eapp.OpenFiles
import Clicky.Eapp.FileReplies
import Clicky.Eapp.FileFrame
