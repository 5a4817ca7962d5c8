import OssSdk.Internal.ClientImplBase

/-!
# What the operations of the clients share
-/

namespace OssSdk
namespace Client

open Foundation
open Internal

variable {σ : Type}

def missingField (name : ByteString) : OperationError :=
  OperationError.ofCode (ErrorCode.client .ArgumentRequired)
    (((SortedMap.empty : ErrorFields).emplace (bytes "Code")
      (bytes "ArgumentRequired")).emplace (bytes "Message")
        (bytes "Missing field " ++ name))

/--
The sink that the body of a result ends up in: the caller's, or a stream of the
operation's own.
-/
def innerSink (userFactory : Option (SinkFactory σ)) (size : Int)
    (headers : HeaderCollection) (sinks : σ × ByteString) :
    Option (ByteWriter (σ × ByteString)) × σ × ByteString :=
  match userFactory with
  | some factory =>
      let (sink, env) := factory.call size headers sinks.1
      (sink.map (ByteWriter.on Cell.fst), env, sinks.2)
  | none =>
      (some (ByteWriter.on Cell.snd (OStreamWriter stringstream)), sinks.1, [])

end Client
end OssSdk
