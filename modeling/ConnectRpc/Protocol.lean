import ConnectRpc.Http

/-!
# Protocols

The three wire protocols, the two codecs, and the header names and content types
that depend on them.
-/

namespace ConnectRpc

/-- The wire protocol of a call. -/
inductive Protocol : Type where
  | connect
  | grpc
  | grpcWeb
  deriving DecidableEq

/-- The message codec. -/
inductive CodecFormat : Type where
  | proto
  | json
  deriving DecidableEq

/-! ## Header names -/

namespace hdr

/-- `connect-content-encoding` -/
def connectContentEncoding : HeaderName := ⟨"connect-content-encoding", by decide⟩

/-- `connect-accept-encoding` -/
def connectAcceptEncoding : HeaderName := ⟨"connect-accept-encoding", by decide⟩

/-- `grpc-encoding` -/
def grpcEncoding : HeaderName := ⟨"grpc-encoding", by decide⟩

/-- `grpc-accept-encoding` -/
def grpcAcceptEncoding : HeaderName := ⟨"grpc-accept-encoding", by decide⟩

/-- `grpc-status` -/
def grpcStatus : HeaderName := ⟨"grpc-status", by decide⟩

/-- `grpc-message` -/
def grpcMessage : HeaderName := ⟨"grpc-message", by decide⟩

/-- `grpc-status-details-bin` -/
def grpcStatusDetailsBin : HeaderName := ⟨"grpc-status-details-bin", by decide⟩

end hdr

namespace Protocol

/-- The `content-type` of a response. -/
def responseContentType : Protocol → CodecFormat → (isStreaming : Bool) → String
  | connect, .proto, false => "application/proto"
  | connect, .json, false => "application/json"
  | connect, .proto, true => "application/connect+proto"
  | connect, .json, true => "application/connect+json"
  | grpc, .proto, _ => "application/grpc+proto"
  | grpc, .json, _ => "application/grpc+json"
  | grpcWeb, .proto, _ => "application/grpc-web+proto"
  | grpcWeb, .json, _ => "application/grpc-web+json"

/-- The streaming content-encoding header. -/
def contentEncodingHeader : Protocol → HeaderName
  | connect => hdr.connectContentEncoding
  | grpc => hdr.grpcEncoding
  | grpcWeb => hdr.grpcEncoding

/-- The streaming accept-encoding header. -/
def acceptEncodingHeader : Protocol → HeaderName
  | connect => hdr.connectAcceptEncoding
  | grpc => hdr.grpcAcceptEncoding
  | grpcWeb => hdr.grpcAcceptEncoding

end Protocol

end ConnectRpc
