import Saps.Spray.SearchTermination
import Saps.Spray.MappingPolicy
import Saps.Spray.SetRotation
import Saps.Spray.ListOrder
import Saps.Spray.FailureRecords
import Saps.Spray.FailureList
import Saps.Spray.Divisors
import Saps.Spray.SelectiveRotation
import Saps.Spray.WeightedPhases
import Saps.Spray.WeakFraction
import Saps.Spray.UplinkWeights
import Saps.Tcp.EstimatorRange
import Saps.Tcp.Backoff
import Saps.Tcp.EcnReaction
import Saps.Tcp.FlowBender
import Saps.Tcp.AlphaBarrier
import Saps.Tcp.EchoedFraction
import Saps.Tcp.IntSacker
import Saps.Tcp.Completion
import Saps.Tcp.DelayedAck
import Saps.Tcp.EarnedWindow
import Saps.Tcp.AlphaAverage
import Saps.Tcp.TimerRuns
import Saps.Traffic.InverseTransform
import Saps.Queue.ThresholdMarker
import Saps.Queue.InterdropPeriods
import Saps.Classifier.UplinkNumbers
import Saps.Classifier.RoundRobin
import Saps.Classifier.SizeAwareHash
import Saps.Classifier.Definedness
import Saps.Network.ConfinedDelivery
import Saps.Simulator.IncomingTraffic
import Saps.Simulator.NodeTable
import Saps.Script.AllToAllRuns
import Saps.Script.FlowDivisions
import Saps.Script.RunSummary
import Saps.Script.FatTree
