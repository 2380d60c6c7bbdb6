import QuietRoute.Containers.UnorderedMap
import QuietRoute.Containers.PriorityQueue
import QuietRoute.Search.BestFirst
import QuietRoute.Search.Trails
import QuietRoute.Network.TransportNetwork
import QuietRoute.Network.RouteSearch
import QuietRoute.Network.Invariants
import QuietRoute.Network.SearchInvariant
import QuietRoute.Network.Walks
import QuietRoute.Network.FastestPath
import QuietRoute.Network.FastestRoute
import QuietRoute.Search.Deviations
import QuietRoute.Network.MissedPaths
import QuietRoute.Network.Crowding
import QuietRoute.Network.LooplessPaths
import QuietRoute.Network.FailedAddLine
import QuietRoute.Containers.StringView
import QuietRoute.Stomp.FrameGrammar
import QuietRoute.Stomp.FrameParsing
import QuietRoute.Stomp.FrameAcceptance
import QuietRoute.Stomp.FrameComponents
import QuietRoute.Protocol.DeferredRegistry
import QuietRoute.Stomp.StompServer
import QuietRoute.Json
import QuietRoute.Monitor.NetworkMonitor
import QuietRoute.Stomp.ServerMoves
import QuietRoute.Monitor.ConnectedClients
import QuietRoute.Network.LayoutFile
import QuietRoute.Network.TravelTimes
import QuietRoute.Network.LayoutLoading
import QuietRoute.Network.UniformTimes
import QuietRoute.Stomp.FrameRoundTrip
import QuietRoute.Protocol.Typestate
import QuietRoute.Stomp.ServerRuns
import QuietRoute.Stomp.ServerOrder
import QuietRoute.Network.QuietSelection
import QuietRoute.Monitor.PassengerEvents
import QuietRoute.Stomp.StompClient
import QuietRoute.Stomp.ClientRuns
import QuietRoute.Stomp.ClientSubscriptions
import QuietRoute.Monitor.RouteJson
import QuietRoute.Network.ItineraryIds
import QuietRoute.Stomp.ServerReplies
import QuietRoute.Monitor.QuietReplies
import QuietRoute.Network.SoundPaths
import QuietRoute.Network.EnumerationEnds
import QuietRoute.Network.AddedLines
import QuietRoute.Network.TimeUpdates
import QuietRoute.Network.RouteTimes
import QuietRoute.Network.ServedStations
import QuietRoute.Network.LayoutRange
import QuietRoute.Stomp.FrameCopies
import QuietRoute.Stomp.ProtocolViolations
import QuietRoute.Monitor.ErrorCodes
import QuietRoute.Stomp.OverlappingWrites
import QuietRoute.Stomp.ClosedClients
import QuietRoute.Stomp.HeaderErrors
import QuietRoute.Network.WrappedTimes
import QuietRoute.Network.WarmStarts
import QuietRoute.Protocol.Machine
import QuietRoute.Socket.SessionLifecycles
import QuietRoute.Socket.ServerStack
import QuietRoute.Socket.OpenSessions
import QuietRoute.Protocol.Link
import QuietRoute.Stomp.Letters
import QuietRoute.Stomp.ClientLetters
import QuietRoute.Stomp.ServerLetters
import QuietRoute.Stomp.Conversation
import QuietRoute.Monitor.MonitorRuns
import QuietRoute.Monitor.Consultations
import QuietRoute.Monitor.MonitorConversation
import QuietRoute.Stomp.PoliteClients
import QuietRoute.Network.FastestTimes
import QuietRoute.Network.Recounts
import QuietRoute.Network.SearchLimits
import QuietRoute.Monitor.PassengerFeed
