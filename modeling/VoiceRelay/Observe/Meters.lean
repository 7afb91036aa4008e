import VoiceRelay.Http.Reply
import VoiceRelay.Observe.Exposition

/-!
# The relay's meters

What the relay counts while it runs, and the families of metrics that show it, in the order of their
names. Counters are numbers of 64 bits and begin again after the greatest. A labelled counter exists
from its first use on, and labels are shown in order.
-/

namespace VoiceRelay

/-- Counters by label, in the order of the labels. -/
abbrev Tally := List (String × Nat)

/-- How long broadcasts took: how many fell into each bucket and into none, and their sum. -/
structure Durations where
  buckets : List Nat
  count : Nat
  sum : Float

/-- The meters. -/
structure Meters where
  active : Int
  delivered : Tally
  failures : Nat
  durations : Durations
  forwarded : Nat
  messages : Nat
  connects : Nat
  polls : Tally

namespace Meters

section Counting

/-- One more than the greatest number of a counter. -/
def wrap : Nat := 0x10000000000000000

/-- A counter after some more. -/
def plus (a b : Nat) : Nat := (a + b) % wrap

/-- Counts under a label. -/
def tally (name : String) (n : Nat) : Tally → Tally
  | [] => [(name, n % wrap)]
  | (k, m) :: rest =>
    if name = k then (k, plus m n) :: rest
    else if name < k then (name, n % wrap) :: (k, m) :: rest
    else (k, m) :: tally name n rest

/-- The upper ends of the buckets, in seconds. -/
def bounds : List Float := [0.0005, 0.001, 0.005, 0.01, 0.05, 0.1, 0.5, 1, 5]

/-- One more in the first bucket that holds a value. -/
def intoBucket (x : Float) : List Float → List Nat → List Nat
  | b :: bs, n :: ns => if x ≤ b then plus n 1 :: ns else n :: intoBucket x bs ns
  | _, ns => ns

/-- Takes a duration in. -/
def observe (m : Meters) (x : Float) : Meters :=
  let d := m.durations
  { m with durations := ⟨intoBucket x bounds d.buckets, plus d.count 1, d.sum + x⟩ }

/-- All meters at zero. -/
def fresh : Meters :=
  ⟨0, [], 0, ⟨bounds.map fun _ => 0, 0, 0⟩, 0, 0, 0, []⟩

end Counting

section Families

/-- A family with one sample. -/
def single (name help : String) (kind : Exposition.Kind) (x : Float) : Exposition.Family :=
  ⟨name, help, kind, [⟨"", [], x⟩]⟩

/-- A family of counters by label. -/
def labelled (name help key : String) (t : Tally) : Exposition.Family :=
  ⟨name, help, .counter, t.map fun e => ⟨"", [(key, e.1)], Float.ofNat e.2⟩⟩

/-- The samples of the buckets, each with all that came before. -/
def bucketSamples (before : Nat) : List Float → List Nat → List Exposition.Sample
  | b :: bs, n :: ns =>
    ⟨"_bucket", [("le", .ofList (Binary64.text b))], Float.ofNat (before + n)⟩ ::
      bucketSamples (before + n) bs ns
  | _, _ => []

/-- The samples of the durations. -/
def durationSamples (d : Durations) : List Exposition.Sample :=
  bucketSamples 0 bounds d.buckets ++
    [⟨"_bucket", [("le", "+Inf")], Float.ofNat d.count⟩, ⟨"_sum", [], d.sum⟩,
      ⟨"_count", [], Float.ofNat d.count⟩]

/-- The families, in the order of their names. -/
def families (m : Meters) : List Exposition.Family :=
  [⟨"tsrelay_broadcast_duration_seconds", "Dauer einer Verteilung an alle Subscriber in Sekunden",
      .histogram, durationSamples m.durations⟩,
    single "tsrelay_chat_forwarded_total" "An den Server weitergeleitete Chat-Nachrichten"
      .counter (Float.ofNat m.forwarded),
    single "tsrelay_delivery_failures_total"
      "Fehlgeschlagene Zustellungen (Subscriber wurde entfernt)" .counter (Float.ofNat m.failures),
    labelled "tsrelay_envelopes_delivered_total" "Gesamtanzahl zugestellter Envelopes" "header"
      m.delivered,
    single "tsrelay_event_stream_connects_total" "Verbindungsversuche des Ereignisstroms"
      .counter (Float.ofNat m.connects),
    labelled "tsrelay_roster_polls_total" "Abfragen der Client-Liste nach Ergebnis" "result"
      m.polls,
    single "tsrelay_server_messages_total" "Aus dem Ereignisstrom empfangene Chat-Nachrichten"
      .counter (Float.ofNat m.messages),
    single "tsrelay_subscribers_active" "Anzahl aktuell registrierter Subscriber" .gauge
      (Float.ofInt m.active)]

/-- The text of all meters. -/
def text (m : Meters) : List Char := Exposition.text m.families

/-- The path of the meters. -/
def path : String := "/metrics"

/-- The reply with the meters. -/
def reply (m : Meters) : Http.Reply :=
  Http.withBody 200 "text/plain; version=0.0.4" (Utf8.encode m.text)

end Families

end Meters
end VoiceRelay
