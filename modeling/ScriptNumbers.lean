import ScriptNumbers.Json.Number
import ScriptNumbers.Proofs.AdditionLaws
import ScriptNumbers.Proofs.CastRoundTrips
import ScriptNumbers.Proofs.ComparisonLaws
import ScriptNumbers.Proofs.CorrectRounding
import ScriptNumbers.Proofs.DecimalRounding
import ScriptNumbers.Proofs.Differences
import ScriptNumbers.Proofs.DoubleRounding
import ScriptNumbers.Proofs.DoubleScaling
import ScriptNumbers.Proofs.ExactOrder
import ScriptNumbers.Proofs.Expressions
import ScriptNumbers.Proofs.FloatArithmetic
import ScriptNumbers.Proofs.FloatQuotients
import ScriptNumbers.Proofs.FloatingCasts
import ScriptNumbers.Proofs.FloatingLiterals
import ScriptNumbers.Proofs.FloatingNumerals
import ScriptNumbers.Proofs.HexIntegers
import ScriptNumbers.Proofs.HexNumerals
import ScriptNumbers.Proofs.IntegerCasts
import ScriptNumbers.Proofs.IntegerNumerals
import ScriptNumbers.Proofs.IntegerQuotients
import ScriptNumbers.Proofs.JsonDecimals
import ScriptNumbers.Proofs.JsonDoubles
import ScriptNumbers.Proofs.JsonIntegers
import ScriptNumbers.Proofs.JsonNearest
import ScriptNumbers.Proofs.JsonRoundTrip
import ScriptNumbers.Proofs.JsonTexts
import ScriptNumbers.Proofs.JsonTokens
import ScriptNumbers.Proofs.JsonValues
import ScriptNumbers.Proofs.KeyOrder
import ScriptNumbers.Proofs.LiteralBoundaries
import ScriptNumbers.Proofs.LiteralColumns
import ScriptNumbers.Proofs.LiteralEvents
import ScriptNumbers.Proofs.LiteralFaults
import ScriptNumbers.Proofs.LiteralGrammar
import ScriptNumbers.Proofs.LiteralNodes
import ScriptNumbers.Proofs.LiteralScan
import ScriptNumbers.Proofs.LiteralSettings
import ScriptNumbers.Proofs.LiteralText
import ScriptNumbers.Proofs.LiteralValues
import ScriptNumbers.Proofs.Magnitudes
import ScriptNumbers.Proofs.Narrowing
import ScriptNumbers.Proofs.NearMisses
import ScriptNumbers.Proofs.NearestValue
import ScriptNumbers.Proofs.NumberOrder
import ScriptNumbers.Proofs.NumberText
import ScriptNumbers.Proofs.Numerals
import ScriptNumbers.Proofs.PlainIntegerOrder
import ScriptNumbers.Proofs.PlainIntegers
import ScriptNumbers.Proofs.PositionalText
import ScriptNumbers.Proofs.Remainders
import ScriptNumbers.Proofs.Rounding
import ScriptNumbers.Proofs.Scaling
import ScriptNumbers.Proofs.Sessions
import ScriptNumbers.Proofs.SettingsMembers
import ScriptNumbers.Proofs.ShortestDecimal
import ScriptNumbers.Proofs.ShortestDigits
import ScriptNumbers.Proofs.ShortestText
import ScriptNumbers.Proofs.StaticKinds
import ScriptNumbers.Proofs.Truncation
import ScriptNumbers.Proofs.Words
import ScriptNumbers.Proofs.Wrapping
import ScriptNumbers.Proofs.ZeroDivisors
import ScriptNumbers.Session
