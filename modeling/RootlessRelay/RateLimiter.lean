import RootlessRelay.Basic

/-!
# The rate limiter

`SlidingWindowRateLimiter` of `rate_limiter.js`: a log of the bytes accepted in
the last `windowMs`. The clock is the argument `now`, which the source reads by
itself.

What has expired is dropped from the front of the log when the limiter is asked
next, and the array behind it is cut only now and then; `head` says where the
log begins in it. The code is translated as it stands. That none of this shows
in its answers is proved in `SlidingWindow`.
-/

namespace RootlessRelay

/-- Bytes accepted at one millisecond, all requests of that millisecond
together. -/
structure LimiterEntry where
  timestamp : Nat
  bytes : Nat
  deriving DecidableEq, Repr

/-- The fields of a limiter: its two bounds, the array with the index it begins
at, and the sum of the log. -/
structure SlidingWindowRateLimiter where
  maxBytes : Nat
  windowMs : Nat
  entries : List LimiterEntry := []
  head : Nat := 0
  totalBytes : Nat := 0
  deriving DecidableEq, Repr

namespace SlidingWindowRateLimiter

/-- The `while` loop of `prune` over the entries from `head` on; an entry is
dropped when `timestamp <= now - windowMs`. -/
def pruneLoop (now windowMs head totalBytes : Nat) : List LimiterEntry → Nat × Nat
  | [] => (head, totalBytes)
  | entry :: rest =>
    if entry.timestamp + windowMs ≤ now then
      pruneLoop now windowMs (head + 1) (totalBytes - entry.bytes) rest
    else (head, totalBytes)

/-- `prune`: drop what has expired, empty the array if that is all, and cut it
if its dead part has become long. -/
def prune (r : SlidingWindowRateLimiter) (now : Nat) : SlidingWindowRateLimiter :=
  let (head, totalBytes) := pruneLoop now r.windowMs r.head r.totalBytes (r.entries.drop r.head)
  if head = r.entries.length then { r with entries := [], head := 0, totalBytes }
  else if head ≥ 1024 ∧ head * 2 ≥ r.entries.length then
    { r with entries := r.entries.drop head, head := 0, totalBytes }
  else { r with head, totalBytes }

/-- `tryConsume`: accept the bytes if they fit into the window, and record them. -/
def tryConsume (r : SlidingWindowRateLimiter) (now bytes : Nat) :
    SlidingWindowRateLimiter × Bool :=
  let r := r.prune now
  if r.totalBytes + bytes > r.maxBytes then (r, false)
  else if bytes = 0 then (r, true)
  else
    let entries := match r.entries.getLast? with
      | some last =>
        if last.timestamp = now then
          r.entries.dropLast ++ [{ last with bytes := last.bytes + bytes }]
        else r.entries ++ [{ timestamp := now, bytes }]
      | none => r.entries ++ [{ timestamp := now, bytes }]
    ({ r with entries, totalBytes := r.totalBytes + bytes }, true)

end SlidingWindowRateLimiter

/-- The limiter of a new session, over windows of one second. -/
def Settings.rateLimiter (cfg : Settings) : SlidingWindowRateLimiter :=
  { maxBytes := cfg.rateLimitBps, windowMs := 1000 }

end RootlessRelay
