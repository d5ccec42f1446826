import ConnectRpc.AcceptRun
import ConnectRpc.AgeJitter
import ConnectRpc.AssemblerMemory
import ConnectRpc.BatchBound
import ConnectRpc.BidiReceive
import ConnectRpc.BidiSend
import ConnectRpc.BundledServices
import ConnectRpc.CleanEnd
import ConnectRpc.ClientStreamExchange
import ConnectRpc.ClientStreamScan
import ConnectRpc.CodecNegotiation
import ConnectRpc.CodegenIdents
import ConnectRpc.CommentHtml
import ConnectRpc.Comments
import ConnectRpc.DeadlineStream
import ConnectRpc.DescriptorSet
import ConnectRpc.DetectionTimeout
import ConnectRpc.DialRun
import ConnectRpc.ErrorMetadata
import ConnectRpc.ErrorResponse
import ConnectRpc.ErrorRoundTrip
import ConnectRpc.Exchange
import ConnectRpc.FormatSafety
import ConnectRpc.GeneratedClient
import ConnectRpc.GetExchange
import ConnectRpc.GetRoundTrip
import ConnectRpc.GzipLaw
import ConnectRpc.HeadGate
import ConnectRpc.HeaderPrecedence
import ConnectRpc.HealthChecker
import ConnectRpc.IdleRetirement
import ConnectRpc.Lib.Incremental
import ConnectRpc.Lib.Poll
import ConnectRpc.MessageFuture
import ConnectRpc.MessageTooLarge
import ConnectRpc.PayloadCache
import ConnectRpc.QueueBound
import ConnectRpc.ReflectionService
import ConnectRpc.RequestMessage
import ConnectRpc.RequestRoundTrip
import ConnectRpc.ResponseCompression
import ConnectRpc.RoundTrip
import ConnectRpc.Router
import ConnectRpc.SharedReadiness
import ConnectRpc.StatusEncoding
import ConnectRpc.Timeout
import ConnectRpc.Trailers
import ConnectRpc.TrailersSurvive
import ConnectRpc.Transparency
import ConnectRpc.Truncation
import ConnectRpc.UnaryCutting
import ConnectRpc.UnaryErrorMetadata
import ConnectRpc.UnaryResponse
import ConnectRpc.Upload
import ConnectRpc.ViewBody
