import Turnstile.Proofs.Service.Asks
import Turnstile.Proofs.Store.Room

/-!
Room for what a service does.

All that a service keeps is kept for one of four spans: the interval between sweeps, the life of a record, the life
of a lock, and the time that a bucket is kept. A service has room up to a moment if what it keeps then still ends
while clocks can show it. Then every call that the service makes has room.
-/

namespace Turnstile

variable {last : Moment}

/-- A registry needs room for its records and for nothing else: looks and evictions keep nothing. -/
theorem Registry.Asks.fits {g : Registry} (life : g.life.FitsAfter last) {c : Call} (asks : g.Asks c) :
    c.FitsAfter last := by
  cases asks with
  | look => trivial
  | create => exact life
  | replace => exact life
  | evict => trivial

/-- Locks need room for their life when they are claimed, and none when they are given back. -/
theorem Lease.Asks.fits {life : Span} (fits : life.FitsAfter last) {c : Call} (asks : Lease.Asks life c) :
    c.FitsAfter last := by
  cases asks with
  | claim => exact fits
  | giveBack => trivial

namespace Service

/-- The spans of a service end while clocks can show it. -/
structure HasRoom (service : Service) (sweepInterval : Span) (last : Moment) : Prop where
  sweeps : sweepInterval.FitsAfter last
  records : service.guard.registry.life.FitsAfter last
  buckets : ∀ path method, (service.policies.resolve path method).limit.FitsAfter last
  locks : ∀ path method, (service.policies.resolve path method).origin ≠ none → service.guard.lockLife.FitsAfter last

/-- Every call that a service makes has room. There are five kinds of them, and each keeps something for one of the four
spans or nothing at all. -/
theorem HasRoom.fits {service : Service} {sweepInterval : Span} (room : service.HasRoom sweepInterval last) (c : Call)
    (asks : service.Asks c) : c.FitsAfter last := by
  cases asks with
  | take client path method cost usable coverable => exact ⟨usable, coverable, room.buckets path method⟩
  | record c asks => exact asks.fits room.records
  | lock path method idempotent c asks => exact asks.fits (room.locks path method idempotent)
  | ping => trivial

end Service

end Turnstile
