import RvPipeSim.Funct
import RvPipeSim.InOrder
import RvPipeSim.Lru
import RvPipeSim.Hazards
import RvPipeSim.Flow
import RvPipeSim.Branches
import RvPipeSim.Progress
import RvPipeSim.Conservation
import RvPipeSim.Halt
import RvPipeSim.Exceptions
import RvPipeSim.Handler
import RvPipeSim.Drain
import RvPipeSim.Refinement
import RvPipeSim.Transparency
import RvPipeSim.FunctRefinement
import RvPipeSim.Lib.Rv64i
import RvPipeSim.BitFields
import RvPipeSim.MemoryAccess
import RvPipeSim.Decoding
import RvPipeSim.Execution
import RvPipeSim.NotTaken
import RvPipeSim.Timing
import RvPipeSim.MissLatency
import RvPipeSim.LoadBranch
import RvPipeSim.LoadStalls
import RvPipeSim.Accounting
import RvPipeSim.IllegalFlush
import RvPipeSim.Slicing
import RvPipeSim.Staged
import RvPipeSim.ByteMap
import RvPipeSim.Loading
import RvPipeSim.Lib.InputStream
import RvPipeSim.InitialImage
import RvPipeSim.Inclusion
import RvPipeSim.RankInvariant
import RvPipeSim.IndexSafety
import RvPipeSim.Printing
import RvPipeSim.TraceLegality
import RvPipeSim.TraceOperands
import RvPipeSim.DynamicCount
import RvPipeSim.CycleAccounting
import RvPipeSim.Liveness
import RvPipeSim.Termination
import RvPipeSim.Contract
import RvPipeSim.Lib.Apart
import RvPipeSim.Lib.Rv64iRun
import RvPipeSim.IsaRefinement
import RvPipeSim.Lib.OutputStream
import RvPipeSim.MemoryDump
import RvPipeSim.OutputFiles
import RvPipeSim.PipeTrace
import RvPipeSim.Lib.InputDecimal
import RvPipeSim.CacheArguments
import RvPipeSim.Programs
import RvPipeSim.Lib.Paging
import RvPipeSim.CacheMisses
import RvPipeSim.DataTrace
import RvPipeSim.FetchTrace
import RvPipeSim.ExecutionTime
