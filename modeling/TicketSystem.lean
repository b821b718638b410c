import TicketSystem.Support.Pieces
import TicketSystem.Database.PoolRuns
import TicketSystem.Database.PoolReset
import TicketSystem.Database.FetchFailure
import TicketSystem.Database.VectorRuns
import TicketSystem.Database.DiskOffsets
import TicketSystem.Database.LinkedHashmapRuns
import TicketSystem.Database.PageRules
import TicketSystem.Database.LeafSearch
import TicketSystem.Database.TreeShape
import TicketSystem.Database.PageSteps
import TicketSystem.Database.TreeSearch
import TicketSystem.Database.TreeInsert
import TicketSystem.Database.TreeBalance
import TicketSystem.Database.TreeRemove
import TicketSystem.Database.TreeLeaves
import TicketSystem.Database.TreeMap
import TicketSystem.Database.TreeOperations
import TicketSystem.Database.TreeRuns
import TicketSystem.Backend.Privileges
import TicketSystem.Backend.Safety
import TicketSystem.Backend.Waitlist
import TicketSystem.Backend.TicketQuery
import TicketSystem.Backend.Profile
import TicketSystem.Backend.Failures
import TicketSystem.Backend.PrivilegeBounds
import TicketSystem.Backend.OrderNumbers
import TicketSystem.Backend.TicketListing
import TicketSystem.Backend.Renumbering
import TicketSystem.Backend.CleanSlate
import TicketSystem.Backend.TransferQuery
import TicketSystem.Backend.PriceBounds
import TicketSystem.Backend.PurchaseLog
import TicketSystem.Backend.PurchaseDate
import TicketSystem.Backend.RedBlackShape
import TicketSystem.Backend.CommandBuffer
import TicketSystem.Database.IndexFile
import TicketSystem.Database.IndexSessions
import TicketSystem.Database.NodeSearch
import TicketSystem.Log.StackManager
import TicketSystem.Database.HeaderPage
import TicketSystem.Database.IndexIterator
import TicketSystem.Backend.OptionOrder
import TicketSystem.Backend.RedBlackRuns
import TicketSystem.Database.LatchedTree
import TicketSystem.Database.PageDeletion
import TicketSystem.Database.LatchMonitor
import TicketSystem.Database.ThreadPool
import TicketSystem.Database.IndexRefinement
import TicketSystem.Database.PageAllocation
