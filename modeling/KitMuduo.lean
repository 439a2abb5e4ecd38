import KitMuduo.ListSegment
import KitMuduo.FirstPosition
import KitMuduo.ListSearch
import KitMuduo.FifoHistory
import KitMuduo.RecencyList
import KitMuduo.EagerLru
import KitMuduo.Bytes
import KitMuduo.Buffer
import KitMuduo.BufferFifo
import KitMuduo.BufferAccessors
import KitMuduo.LruCache
import KitMuduo.LruCacheRefinement
import KitMuduo.GuardedRuns
import KitMuduo.BackPointers
import KitMuduo.Channel
import KitMuduo.PollPoller
import KitMuduo.TcpConnection
import KitMuduo.TcpConnectionStream
import KitMuduo.TcpServer
import KitMuduo.TcpServerLife
import KitMuduo.TcpServerPlaces
import KitMuduo.TcpServerLives
import KitMuduo.TcpServerTeardown
import KitMuduo.SeparatedPieces
import KitMuduo.LexicalPath
import KitMuduo.PosixGlob
import KitMuduo.EcmaRegex
import KitMuduo.HttpRouterSegments
import KitMuduo.HttpRouteStatics
import KitMuduo.HttpRouterMatch
import KitMuduo.EventLoop
import KitMuduo.EventLoopThread
import KitMuduo.HttpMessage
import KitMuduo.HttpMessageText
import KitMuduo.HttpResponseFraming
import KitMuduo.WhileLoop
import KitMuduo.CustomHttpParser
import KitMuduo.CustomHttpParserTurns
import KitMuduo.CustomHttpParserTermination
import KitMuduo.CustomHttpParserReads
import KitMuduo.CustomHttpParserInverse
import KitMuduo.GatheredValues
import KitMuduo.ReadCuts
import KitMuduo.LLhttpParser
import KitMuduo.LLhttpDelivery
import KitMuduo.LLhttpParserFragments
import KitMuduo.RequestScanner
import KitMuduo.LLhttpParserReads
import KitMuduo.ThreadPool
import KitMuduo.MutexOwnership
import KitMuduo.BoundedTaskQueue
import KitMuduo.ThreadPoolSteps
import KitMuduo.ThreadPoolThreads
import KitMuduo.ThreadPoolQueue
import KitMuduo.ThreadPoolStop
import KitMuduo.ThreadPoolStaff
import KitMuduo.ThreadPoolWakeup
import KitMuduo.ThreadPoolProgress
import KitMuduo.ThreadPoolTasks
import KitMuduo.ThreadPoolStopWakeup
import KitMuduo.ComparerSet
import KitMuduo.SampleTimerQueue
import KitMuduo.SampleTimerQueueSteps
import KitMuduo.SampleTimerQueueKept
import KitMuduo.SampleTimerQueueCancel
import KitMuduo.SampleTimerQueuePlaces
import KitMuduo.SampleTimerQueueIndices
import KitMuduo.SampleTimerQueueDeadline
import KitMuduo.HttpServer
import KitMuduo.ItemCustody
import KitMuduo.TcpConnectionQueue
import KitMuduo.HttpServerOrder
import KitMuduo.HttpServerAlternation
import KitMuduo.HttpRouter
import KitMuduo.HttpServletDispatch
import KitMuduo.HttpServletDispatchTable
import KitMuduo.HttpStaticFile
import KitMuduo.MethodMasks
import KitMuduo.HttpServletDispatchRuns
import KitMuduo.HttpServletDispatchAnswer
import KitMuduo.HttpServletDispatchListing
import KitMuduo.MultiFormParser
import KitMuduo.MultiFormEncoding
import KitMuduo.MultiFormParserPart
import KitMuduo.MultiFormParserInverse
import KitMuduo.FirstRule
import KitMuduo.HttpContentType
import KitMuduo.PollPollerIndex
import KitMuduo.PollPollerReports
import KitMuduo.AsyncUdpDatagram
import KitMuduo.AsyncUdpDatagramClose
import KitMuduo.AsyncUdpDatagramDelivery
import KitMuduo.AsyncUdpDatagramStart
import KitMuduo.AsyncUdpDatagramBoundaries
import KitMuduo.EpollPoller
import KitMuduo.EpollPollerStatus
import KitMuduo.EventLoopOrder
import KitMuduo.EventLoopWakeup
import KitMuduo.LruCacheThreads
import KitMuduo.LruCacheThreadsRuns
import KitMuduo.LinearizationPoints
import KitMuduo.LruCacheLinearized
import KitMuduo.PollerEquivalence
import KitMuduo.PollerFdReuse
import KitMuduo.ThreadPoolExits
import KitMuduo.ThreadPoolNumbers
import KitMuduo.EventLoopObjects
import KitMuduo.EventLoopObjectsLives
import KitMuduo.EventLoopObjectsRuns
import KitMuduo.LLhttpWholeRequest
import KitMuduo.LLhttpHeaders
import KitMuduo.HttpParserAgreement
import KitMuduo.UploadScanner
import KitMuduo.HttpUpload
import KitMuduo.WriteBack
import KitMuduo.HttpMessageReprinted
import KitMuduo.MultiFormLoop
import KitMuduo.MultiFormTruncated
import KitMuduo.MultiFormLfLines
import KitMuduo.MultiFormDisposition
import KitMuduo.MultiFormBoundaryLines
import KitMuduo.CheckedLoop
import KitMuduo.MultiFormPointers
import KitMuduo.MultiFormPlacement
import KitMuduo.HttpResponseHeaders
import KitMuduo.HttpRequestHandling
import KitMuduo.HttpServerConnection
import KitMuduo.HexDigits
import KitMuduo.LLhttpQuery
import KitMuduo.NetDataConverter
import KitMuduo.CustomHttpParserLength
import KitMuduo.TcpConnectionStates
import KitMuduo.SampleTimerQueueTwice
import KitMuduo.SampleTimerQueueOrder
import KitMuduo.SampleTimerQueueBatch
import KitMuduo.SampleTimerQueueBatchLoop
import KitMuduo.SampleTimerQueueBatchRun
import KitMuduo.SampleTimerQueueInserts
import KitMuduo.SampleTimerQueueNumbers
import KitMuduo.BacktrackingRegex
import KitMuduo.LogFormatter
import KitMuduo.LogFormatterPieces
import KitMuduo.LogFormatterClean
import KitMuduo.LogFormatterReading
import KitMuduo.SampleTimerQueueRate
import KitMuduo.TcpConnectionShutdown
import KitMuduo.TcpConnectionCompletion
import KitMuduo.TcpLink
import KitMuduo.HttpConnectionStream
import KitMuduo.CustomHttpParserResponse
import KitMuduo.BoundedTaskQueueOrder
import KitMuduo.ThreadPoolOrder
import KitMuduo.EventLoopThreadPool
import KitMuduo.TcpServerAccept
import KitMuduo.TcpServerOwners
import KitMuduo.Logger
import KitMuduo.LoggerRecords
import KitMuduo.LLhttpAwaited
import KitMuduo.HttpDispatchedResponse
import KitMuduo.HttpConversation
import KitMuduo.EventLoopThreadLife
