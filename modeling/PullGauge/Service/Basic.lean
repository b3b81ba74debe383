import PullGauge.Exchange.Message

/-!
# Services

What answers requests. A service may change by being asked, so an answer comes with the
service as it is afterwards.
-/

namespace PullGauge

class Service (S : Type) where
  answer : S → Request → Except Outage Reply × S

structure FixedService where
  reply : Request → Except Outage Reply

instance : Service FixedService := ⟨fun s r => (s.reply r, s)⟩

end PullGauge
