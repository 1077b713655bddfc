import FleetRegistry.Metrics.Basic
import FleetRegistry.Remote.Response
import FleetRegistry.Store.Watch

/-!
A client of a server. The server is known by what it answers: each request takes the next answer,
and every request that is sent is kept.
-/
namespace FleetRegistry

structure Exchange where
  responses : List HttpResponse
  sent : List HttpRequest := []

namespace Exchange

/-- Sends a request. Without an answer left, the server does not answer. -/
def send (request : HttpRequest) (x : Exchange) : Outcome HttpResponse × Exchange :=
  let sent := x.sent ++ [request]
  match x.responses with
  | response :: rest => (.ok response, { responses := rest, sent })
  | [] => (.error (.transport .unanswered), { responses := [], sent })

end Exchange

structure Remote where
  config : ClientConfig := {}
  exchange : Exchange
  metrics : Metrics := {}

namespace Remote

variable {k : Kind}

/-- Answers a call in a namespace: makes a request of it, sends it and reads the answer. -/
def perform (config : ClientConfig) (ns : Option String) (call : Call k) (x : Exchange) :
    Outcome (Answer k (Stream k)) × Exchange :=
  match requestOf config ns call with
  | .error error => (.error error, x)
  | .ok request =>
    match x.send request with
    | (.error error, x) => (.error error, x)
    | (.ok response, x) => (answerOf call response, x)

/-- Answers a call to the client of a namespace and counts it. -/
def serve (elapsed : Nat) (ns : String) (call : Call k) (r : Remote) :
    Outcome (Answer k (Stream k)) × Remote :=
  let ns := if k.namespaced then some ns else none
  let (outcome, exchange) := perform r.config ns call r.exchange
  let error? := match outcome with
    | .ok _ => none
    | .error error => some error
  (outcome, { r with
    exchange
    metrics := r.metrics.recordResult k.name call.verb error? elapsed })

/-- Reads from a stream, at most so many items, and gives what is left. -/
def readStream (limit : Option Nat) (stream : Stream k) : Batch k × Stream k :=
  match limit with
  | none => (⟨stream, true⟩, [])
  | some n => (⟨stream.take n, stream.length < n⟩, stream.drop n)

end Remote

end FleetRegistry
