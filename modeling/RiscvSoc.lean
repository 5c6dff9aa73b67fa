import RiscvSoc.Rtl.DivQuotient
import RiscvSoc.Host.ResponseMatching
import RiscvSoc.Host.FirstWord
import RiscvSoc.Host.TransmitIntegrity
import RiscvSoc.Runtime.ResetRecovery
import RiscvSoc.Link.HostBounds
import RiscvSoc.Rtl.RegisteredBusDelivery
import RiscvSoc.Rtl.SramBounds
import RiscvSoc.Rtl.SramService
import RiscvSoc.Rtl.SdramRefresh
import RiscvSoc.Rtl.SyncFifoQueue
import RiscvSoc.Rtl.BusCdcRecovery
import RiscvSoc.Rtl.AsyncFifoQueue
import RiscvSoc.Runtime.DirectRequests
import RiscvSoc.Runtime.RegionContents
import RiscvSoc.Rtl.AudiosysPlayback
import RiscvSoc.Rtl.Cpu.PreciseTraps
import RiscvSoc.Rtl.CpuResetWait
import RiscvSoc.Rtl.CpuBusPairing
import RiscvSoc.Rtl.Gfx2dPixels
import RiscvSoc.Rtl.HostBusRxGrammar
import RiscvSoc.Rtl.DspPipe
import RiscvSoc.Rtl.Fpu.Order
import RiscvSoc.Rtl.Fpu.RoundTrip
import RiscvSoc.Rtl.Fpu.Quotient
import RiscvSoc.Rtl.Fpu.Root
import RiscvSoc.Rtl.Cpu.WaitForInterrupt
import RiscvSoc.Rtl.Cpu.CsrInstructions
import RiscvSoc.Rtl.Cpu.NoOperations
import RiscvSoc.Rtl.Cpu.AtomicOperations
import RiscvSoc.Rtl.Cpu.FloatingFlags
import RiscvSoc.Devices.SystemBus
import RiscvSoc.Devices.Dma
import RiscvSoc.Devices.Present
import RiscvSoc.Rtl.ExternalInterruptController
import RiscvSoc.Rtl.AudiosysCredit
import RiscvSoc.Runtime.FpgaReset
import RiscvSoc.Isa.DisasmText
import RiscvSoc.Isa.Expansion
import RiscvSoc.Lib.Timeline
import RiscvSoc.Rtl.VideoFrames
import RiscvSoc.Rtl.ElapsedCounters
import RiscvSoc.Rtl.SkidBuffer
import RiscvSoc.Rtl.I2sSlots
import RiscvSoc.Rtl.UartLoopback
import RiscvSoc.View.SharedBuffers
import RiscvSoc.Rtl.ResetButton
import RiscvSoc.Runtime.HungDetector
import RiscvSoc.View.VideoWindow
import RiscvSoc.Isa.Trace
import RiscvSoc.Isa.TraceNames
import RiscvSoc.Rtl.Cpu.BaseExecution
import RiscvSoc.Lib.WordBytes
import RiscvSoc.Lib.WordPort
import RiscvSoc.Rtl.SdramPeripheral
import RiscvSoc.Rtl.SdramBytes
import RiscvSoc.Rtl.SdramService
import RiscvSoc.Lib.SdramCells
import RiscvSoc.Rtl.SdramWords
import RiscvSoc.Rtl.SdramMemory
import RiscvSoc.Lib.Following
import RiscvSoc.Isa.Program
import RiscvSoc.Rtl.Cpu.MemoryBus
import RiscvSoc.Rtl.Cpu.ProgramExecution
import RiscvSoc.Isa.Sequential
import RiscvSoc.Rtl.Cpu.BaseRefinement
import RiscvSoc.Rtl.Cpu.Requests
