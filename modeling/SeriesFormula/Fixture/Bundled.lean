import SeriesFormula.Fixture.Basic

/-!
# The fixtures that come with the library

One fixture or more for each function and each error of formulas.
-/

namespace SeriesFormula.Fixture

/-- A fixture with the tolerance that holds where none is given. -/
def simple (caseId formula : String) (context : List (String × List (Observation Float))) (expected : Expected) :
    Fixture :=
  ⟨caseId, formula, .ofList context, expected, none⟩

def aggregateFixtures : List Fixture := [
  simple "agg_avg_empty_is_zero" "AVG(EMPTY)" [("empty", [])] (.scalar 0.0),
  simple "agg_avg_skips_missing" "AVG(GDP)"
    [("gdp", [⟨"2020-01-01", some 2.0⟩, ⟨"2020-02-01", none⟩, ⟨"2020-03-01", some 4.0⟩])]
    (.scalar 3.0),
  simple "agg_count_present" "COUNT(X)"
    [("x", [⟨"2020-01-01", some 1.0⟩, ⟨"2020-02-01", none⟩, ⟨"2020-03-01", some 3.0⟩])]
    (.scalar 2.0),
  simple "agg_min_empty_is_zero" "MIN(EMPTY)" [("empty", [])] (.scalar 0.0),
  simple "agg_min_max" "MAX(CPI)"
    [("cpi", [⟨"2020-01-01", some 3.5⟩, ⟨"2020-02-01", some (-1.0)⟩, ⟨"2020-03-01", some 7.25⟩, ⟨"2020-04-01",
      some 2.0⟩])]
    (.scalar 7.25),
  simple "agg_sum_basic" "SUM(GDP)"
    [("gdp", [⟨"2020-01-01", some 1.0⟩, ⟨"2020-02-01", some 2.0⟩, ⟨"2020-03-01", some 3.0⟩, ⟨"2020-04-01",
      some 4.0⟩])]
    (.scalar 10.0)]

def correlationFixtures : List Fixture := [
  simple "correlation_single_pair_is_zero" "CORRELATION(A,B)"
    [("a", [⟨"2020-01-01", some 1.0⟩]), ("b", [⟨"2020-01-01", some 4.0⟩, ⟨"2020-02-01", some 5.0⟩])]
    (.scalar 0.0),
  simple "correlation_trailing_alignment" "CORRELATION(A,B)"
    [("a", [⟨"2020-01-01", some 1.0⟩, ⟨"2020-02-01", some 2.0⟩, ⟨"2020-03-01", some 3.0⟩, ⟨"2020-04-01",
      some 5.0⟩]), ("b", [⟨"2020-01-01", some 1000.0⟩, ⟨"2020-02-01", some (-750.0)⟩, ⟨"2020-03-01", some 2.0⟩,
      ⟨"2020-04-01", some 4.0⟩, ⟨"2020-05-01", some 6.0⟩, ⟨"2020-06-01", some 10.0⟩])]
    (.scalar 1.0)]

def errorFixtures : List Fixture := [
  simple "error_empty_formula" "   " [] (.error "empty_formula"),
  simple "error_invalid_expression" "SUM(A)+1" [("a", [⟨"2020-01-01", some 1.0⟩])] (.error "invalid_expression"),
  simple "error_invalid_periods" "MA(A,0)"
    [("a", [⟨"2020-01-01", some 1.0⟩, ⟨"2020-02-01", some 2.0⟩])]
    (.error "invalid_periods"),
  simple "error_unknown_function" "BOGUS(FOO)" [("foo", [⟨"2020-01-01", some 1.0⟩])] (.error "unknown_function"),
  simple "error_unknown_identifier" "FOO" [] (.error "unknown_identifier"),
  simple "error_wrong_argument_kind" "SUM(3)" [] (.error "wrong_argument_kind"),
  simple "error_wrong_arity" "SUM(A,B)"
    [("a", [⟨"2020-01-01", some 1.0⟩]), ("b", [⟨"2020-01-01", some 2.0⟩])]
    (.error "wrong_arity")]

def seriesFixtures : List Fixture := [
  simple "literal_is_scalar" "2.5" [] (.scalar 2.5),
  simple "ma_longer_than_series" "MA(X,5)"
    [("x", [⟨"2020-01-01", some 1.0⟩, ⟨"2020-02-01", some 2.0⟩, ⟨"2020-03-01", some 3.0⟩])]
    (.series []),
  simple "ma_window_two" "MA(SERIES,2)"
    [("series", [⟨"2020-01-01", some 1.0⟩, ⟨"2020-02-01", some 2.0⟩, ⟨"2020-03-01", some 3.0⟩, ⟨"2020-04-01",
      some 4.0⟩])]
    (.series [⟨"2020-02-01", some 1.5⟩, ⟨"2020-03-01", some 2.5⟩, ⟨"2020-04-01", some 3.5⟩]),
  simple "momentum_two_periods" "MOMENTUM(X,2)"
    [("x", [⟨"2020-01-01", some 5.0⟩, ⟨"2020-02-01", some 7.0⟩, ⟨"2020-03-01", some 4.0⟩, ⟨"2020-04-01",
      some 10.0⟩])]
    (.series [⟨"2020-03-01", some (-1.0)⟩, ⟨"2020-04-01", some 3.0⟩]),
  simple "nested_roc_of_ma" "ROC(MA(G,2),1)"
    [("g", [⟨"2020-01-01", some 1.0⟩, ⟨"2020-02-01", some 3.0⟩, ⟨"2020-03-01", some 5.0⟩, ⟨"2020-04-01",
      some 7.0⟩])]
    (.series [⟨"2020-03-01", some 100.0⟩, ⟨"2020-04-01", some 50.0⟩]),
  simple "regression_perfect_line" "REGRESSION(L)"
    [("l", [⟨"2020-01-01", some 3.0⟩, ⟨"2020-02-01", some 5.0⟩, ⟨"2020-03-01", some 7.0⟩, ⟨"2020-04-01",
      some 9.0⟩])]
    (.series [⟨"2020-01-01", some 3.0⟩, ⟨"2020-02-01", some 5.0⟩, ⟨"2020-03-01", some 7.0⟩, ⟨"2020-04-01",
      some 9.0⟩]),
  simple "roc_skips_zero_lookback" "ROC(S,1)"
    [("s", [⟨"2020-01-01", some 0.0⟩, ⟨"2020-02-01", some 5.0⟩, ⟨"2020-03-01", some 10.0⟩])]
    (.series [⟨"2020-03-01", some 100.0⟩]),
  simple "rsi_rising_is_one_hundred" "RSI(UP,2)"
    [("up", [⟨"2020-01-01", some 1.0⟩, ⟨"2020-02-01", some 2.0⟩, ⟨"2020-03-01", some 3.0⟩, ⟨"2020-04-01",
      some 4.0⟩])]
    (.series [⟨"2020-03-01", some 100.0⟩, ⟨"2020-04-01", some 100.0⟩]),
  simple "rsi_simple_average" "RSI(X,2)"
    [("x", [⟨"2020-01-01", some 10.0⟩, ⟨"2020-02-01", some 12.0⟩, ⟨"2020-03-01", some 11.0⟩, ⟨"2020-04-01",
      some 13.0⟩])]
    (.series [⟨"2020-03-01", some 66.66666666666667⟩, ⟨"2020-04-01", some 66.66666666666667⟩]),
  simple "uppercase_context_ids" "SUM( GDP )"
    [("GDP", [⟨"2020-01-01", some 1.5⟩, ⟨"2020-02-01", some 2.5⟩])]
    (.scalar 4.0)]

def bundled : List Fixture := aggregateFixtures ++ correlationFixtures ++ errorFixtures ++ seriesFixtures

end SeriesFormula.Fixture
