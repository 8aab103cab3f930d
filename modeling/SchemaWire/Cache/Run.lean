import SchemaWire.Cache

/-!
# Runs of a cache

A cache is used by one call after the other: streams are resolved, generations are entered, and
codecs are looked up.  A stream that does not resolve is no reason to stop; what its failure leaves
behind is the cache of the next call.
-/

namespace SchemaWire
namespace Cache

/-- What a user does with a cache. -/
inductive Call where
  /-- Resolve a stream in a generation. -/
  | resolve (stream : List UInt8) (generation : Uuid)
  /-- Enter a generation. -/
  | enter (generation : Uuid)
  /-- Look up the codec of a type in a generation. -/
  | lookup (generation type : Uuid)
  deriving DecidableEq, Repr

/-- What a cache says to a call. -/
inductive Answer where
  /-- The codec to which a stream resolves, or why it does not. -/
  | resolved (result : Except Fault Codec)
  /-- Whether a generation is another than before. -/
  | entered (changed : Bool)
  /-- The codec of a type, if there is one. -/
  | found (codec : Option Codec)

/-- What a cache says to a call, and what becomes of it. -/
def apply (cache : Cache) : Call → Answer × Cache
  | .resolve stream generation =>
      match resolve stream generation cache with
      | .ok codec after => (.resolved (.ok codec), after)
      | .error fault after => (.resolved (.error fault), after)
  | .enter generation =>
      let (changed, after) := cache.switch generation
      (.entered changed, after)
  | .lookup generation type => (.found (cache.lookup generation type), cache)

/-- The cache after calls in turn. -/
def after (cache : Cache) : List Call → Cache
  | [] => cache
  | call :: calls => (cache.apply call).2.after calls

/-- No one of the calls in turn changes the generation. -/
def Stays (cache : Cache) : List Call → Prop
  | [] => True
  | call :: calls =>
      (cache.apply call).2.generation = cache.generation ∧ (cache.apply call).2.Stays calls

@[simp]
theorem after_nil (cache : Cache) : cache.after [] = cache := rfl

@[simp]
theorem after_cons (cache : Cache) (call : Call) (calls : List Call) :
    cache.after (call :: calls) = (cache.apply call).2.after calls := rfl

theorem after_append (cache : Cache) (first second : List Call) :
    cache.after (first ++ second) = (cache.after first).after second := by
  induction first generalizing cache with
  | nil => rfl
  | cons call calls ih => exact ih _

theorem stays_append (cache : Cache) (first second : List Call) :
    cache.Stays (first ++ second) ↔ cache.Stays first ∧ (cache.after first).Stays second := by
  induction first generalizing cache with
  | nil => simp [Stays]
  | cons call calls ih => rw [List.cons_append, Stays, Stays, ih, after_cons, and_assoc]

end Cache
end SchemaWire
