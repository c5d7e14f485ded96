import PercentFormat.Text.Decimal

/-! # Cache metrics

Five counters of 64 bits. -/

namespace PercentFormat

inductive Metric
  | lookups
  | hits
  | misses
  | promotions
  | duplicatePromotions
  deriving DecidableEq, Repr

structure Metrics where
  lookups : UInt64 := 0
  hits : UInt64 := 0
  misses : UInt64 := 0
  promotions : UInt64 := 0
  /-- Templates that found their format cached already. -/
  duplicatePromotions : UInt64 := 0
  deriving DecidableEq, Repr

namespace Metrics

def get (m : Metrics) : Metric → UInt64
  | .lookups => m.lookups
  | .hits => m.hits
  | .misses => m.misses
  | .promotions => m.promotions
  | .duplicatePromotions => m.duplicatePromotions

def count (m : Metrics) : Metric → Metrics
  | .lookups => { m with lookups := m.lookups + 1 }
  | .hits => { m with hits := m.hits + 1 }
  | .misses => { m with misses := m.misses + 1 }
  | .promotions => { m with promotions := m.promotions + 1 }
  | .duplicatePromotions => { m with duplicatePromotions := m.duplicatePromotions + 1 }

def item (name : String) (n : UInt64) : String := name ++ ": " ++ Decimal.text n.toNat

def summary (m : Metrics) : String :=
  "FormatMetricsSnapshot \x7b " ++
    String.intercalate ", " [item "lookups" m.lookups, item "hits" m.hits,
      item "misses" m.misses, item "promotions" m.promotions,
      item "duplicate_promotions" m.duplicatePromotions] ++ " \x7d"

end Metrics

end PercentFormat
