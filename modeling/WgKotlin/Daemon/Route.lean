import WgKotlin.Daemon.Validation

/-!
# Routes of a session

`route_manager::Route`, as far as the daemon uses it: a destination, the length
of its prefix and the interface that it leads to.
-/

namespace WgKotlin
namespace Daemon

open Proto Library

structure Route where
  destination : IpAddr
  prefixLen : UInt8
  ifName : Option String
  deriving DecidableEq

namespace Route

/-- `Route::mask`: the first `prefix` bits set, byte by byte. -/
def mask (route : Route) : IpAddr where
  family := route.destination.family
  octets := (List.range route.destination.family.size).map fun i =>
    UInt8.ofNat (highMask (min 8 (route.prefixLen.toNat - 8 * i)))
  size := by rw [List.length_map, List.length_range]

/-- `32` or `128` -/
def hostPrefix (route : Route) : Nat := maxPrefix route.destination

/-- The destination with the bits behind the prefix cleared. -/
def network (route : Route) : IpAddr where
  family := route.destination.family
  octets := List.zipWith (· &&& ·) route.destination.octets route.mask.octets
  size := by
    rw [List.length_zipWith, route.destination.size, route.mask.size]
    exact Nat.min_self _

end Route

end Daemon
end WgKotlin
