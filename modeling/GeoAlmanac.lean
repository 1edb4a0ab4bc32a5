import GeoAlmanac.Main
import GeoAlmanac.Proofs.Calendar.Days
import GeoAlmanac.Proofs.Reals.Numbers
import GeoAlmanac.Proofs.Sphere.LocalView
import GeoAlmanac.Proofs.Sphere.GreatCircle
import GeoAlmanac.Proofs.Sun.Pairing
import GeoAlmanac.Proofs.Sun.RightAscension
import GeoAlmanac.Proofs.Sun.UniversalTime
import GeoAlmanac.Proofs.Sun.Solstice
import GeoAlmanac.Proofs.Sun.Daylight
import GeoAlmanac.Proofs.Sun.Polar
import GeoAlmanac.Proofs.Binary64.Rounding
import GeoAlmanac.Proofs.Binary64.Significand
import GeoAlmanac.Proofs.Binary64.Operations
import GeoAlmanac.Proofs.Binary64.Storage
import GeoAlmanac.Proofs.Binary64.Value
import GeoAlmanac.Proofs.Binary64.Intervals
import GeoAlmanac.Proofs.Binary64.Angles
import GeoAlmanac.Proofs.Binary64.Signs
import GeoAlmanac.Proofs.Sphere.Doubles
import GeoAlmanac.Proofs.Sphere.ValidPoints
import GeoAlmanac.Proofs.Sphere.Ranges
import GeoAlmanac.Proofs.Decimal.Digits
import GeoAlmanac.Proofs.Decimal.Fixed
import GeoAlmanac.Proofs.Text.Blanks
import GeoAlmanac.Proofs.Calendar.Reading
import GeoAlmanac.Proofs.Almanac.Table
import GeoAlmanac.Proofs.Calendar.Order
import GeoAlmanac.Proofs.Calendar.Ordinal
import GeoAlmanac.Proofs.Almanac.Build
import GeoAlmanac.Proofs.Almanac.Summary
import GeoAlmanac.Proofs.Binary64.WholeParts
import GeoAlmanac.Proofs.Sun.Minutes
import GeoAlmanac.Proofs.Sun.Reports
import GeoAlmanac.Proofs.Sun.EquationOfTime
import GeoAlmanac.Proofs.Sun.DayArc
import GeoAlmanac.Proofs.Sun.ClockTime
import GeoAlmanac.Proofs.Sun.Equinox
import GeoAlmanac.Proofs.Sun.Equator
import GeoAlmanac.Proofs.Sun.Twilight
import GeoAlmanac.Proofs.Files.Paths
import GeoAlmanac.Proofs.Files.Tree
import GeoAlmanac.Proofs.Files.Changes
import GeoAlmanac.Proofs.Almanac.Export
import GeoAlmanac.Proofs.Catalog.Directory
import GeoAlmanac.Proofs.CommandLine.Report
import GeoAlmanac.Proofs.Sphere.Scaling
import GeoAlmanac.Proofs.Sphere.Metric
import GeoAlmanac.Proofs.Sphere.Midpoint
import GeoAlmanac.Proofs.Sphere.FlatChart
import GeoAlmanac.Proofs.Sphere.Loxodrome
import GeoAlmanac.Proofs.Sphere.Courses
import GeoAlmanac.Proofs.Sphere.LoxodromeCourse
import GeoAlmanac.Proofs.Binary64.Neighbours
import GeoAlmanac.Proofs.Binary64.Turns
import GeoAlmanac.Proofs.Sexagesimal.Parts
import GeoAlmanac.Proofs.Sexagesimal.Exact
import GeoAlmanac.Proofs.Sexagesimal.Reading
import GeoAlmanac.Proofs.Sun.ComputedOffset
import GeoAlmanac.Proofs.Sun.ComputedLongitude
import GeoAlmanac.Proofs.Sun.NearestTangents
import GeoAlmanac.Proofs.Binary64.Accuracy
import GeoAlmanac.Proofs.Sun.ComputedPosition
import GeoAlmanac.Proofs.Sun.ComputedAscension
import GeoAlmanac.Proofs.Sun.ComputedCrossing
import GeoAlmanac.Proofs.Sun.DayLength
import GeoAlmanac.Proofs.Sphere.ChartAccuracy
import GeoAlmanac.Proofs.Files.Parents
import GeoAlmanac.Proofs.Almanac.SummaryPath
import GeoAlmanac.Proofs.Catalog.Selection
import GeoAlmanac.Proofs.Decimal.Nearest
import GeoAlmanac.Proofs.Decimal.Numerals
import GeoAlmanac.Proofs.Decimal.Shortest
import GeoAlmanac.Proofs.CommandLine.Place
import GeoAlmanac.Proofs.Sphere.WholeTurns
import GeoAlmanac.Proofs.Decimal.FixedReading
import GeoAlmanac.Proofs.Sphere.WestOfNorth
import GeoAlmanac.Proofs.CommandLine.Azimuths
import GeoAlmanac.Proofs.Calendar.Instants
