import IrqBalance.Affinity
import IrqBalance.BannedCpus
import IrqBalance.BestObject
import IrqBalance.Bitmap
import IrqBalance.CpuLoads
import IrqBalance.Daemon
import IrqBalance.Deltas
import IrqBalance.Deviations
import IrqBalance.EvenSpread
import IrqBalance.Faithful
import IrqBalance.Filing
import IrqBalance.Finishes
import IrqBalance.Forest
import IrqBalance.FreeMemory
import IrqBalance.FreshStart
import IrqBalance.Hints
import IrqBalance.KeptFree
import IrqBalance.LastCpu
import IrqBalance.Levels
import IrqBalance.LoadFlow
import IrqBalance.LoadStats
import IrqBalance.MaskText
import IrqBalance.Migration
import IrqBalance.MigrationMemory
import IrqBalance.PolicyLines
import IrqBalance.Powersave
import IrqBalance.Progress
import IrqBalance.Rescan
import IrqBalance.Shares
import IrqBalance.Signals
import IrqBalance.Sleepers
import IrqBalance.SortIrqs
import IrqBalance.Steady
import IrqBalance.UniqueNumbers
