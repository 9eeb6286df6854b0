import ImageLabeling.Classification.Accuracy
import ImageLabeling.Classification.Classifier
import ImageLabeling.Classification.Ranking
import ImageLabeling.Classification.Run
import ImageLabeling.CommandLine.Classify
import ImageLabeling.CommandLine.Flag
import ImageLabeling.CommandLine.Parse
import ImageLabeling.CommandLine.Runner
import ImageLabeling.Device
import ImageLabeling.Environment
import ImageLabeling.Event
import ImageLabeling.Failure
import ImageLabeling.File.Path
import ImageLabeling.File.System
import ImageLabeling.Image.File
import ImageLabeling.Image.Input
import ImageLabeling.Image.Picture
import ImageLabeling.Image.Pyramid
import ImageLabeling.Image.Raster
import ImageLabeling.Image.Resize
import ImageLabeling.Image.Transform
import ImageLabeling.Logging.Directive
import ImageLabeling.Logging.Endpoint
import ImageLabeling.Logging.Filter
import ImageLabeling.Logging.Record
import ImageLabeling.Logging.Subscriber
import ImageLabeling.Main
import ImageLabeling.Metrics
import ImageLabeling.Number.Binary
import ImageLabeling.Number.Decimal
import ImageLabeling.Number.Literal
import ImageLabeling.Number.MixedRadix
import ImageLabeling.Number.Rounding
import ImageLabeling.Parsing.Accumulator
import ImageLabeling.Parsing.LabelMap
import ImageLabeling.Parsing.Run
import ImageLabeling.Parsing.Scores
import ImageLabeling.Parsing.Upsample
import ImageLabeling.Proofs.Classification.Accounting
import ImageLabeling.Proofs.Classification.Measurements
import ImageLabeling.Proofs.Classification.Ranking
import ImageLabeling.Proofs.Classification.TopClass
import ImageLabeling.Proofs.Classification.TrueLabel
import ImageLabeling.Proofs.Endings
import ImageLabeling.Proofs.File.Extension
import ImageLabeling.Proofs.File.Folder
import ImageLabeling.Proofs.File.Tree
import ImageLabeling.Proofs.Image.Acceptance
import ImageLabeling.Proofs.Image.Crop
import ImageLabeling.Proofs.Image.Input
import ImageLabeling.Proofs.Image.Layout
import ImageLabeling.Proofs.Image.Pyramid
import ImageLabeling.Proofs.Image.Scaling
import ImageLabeling.Proofs.Metrics
import ImageLabeling.Proofs.Number.Arithmetic
import ImageLabeling.Proofs.Number.Decimal
import ImageLabeling.Proofs.Number.Double
import ImageLabeling.Proofs.Number.Dyadic
import ImageLabeling.Proofs.Number.Monotone
import ImageLabeling.Proofs.Number.Order
import ImageLabeling.Proofs.Number.Single
import ImageLabeling.Proofs.Number.Whole
import ImageLabeling.Proofs.Parsing.Accounting
import ImageLabeling.Proofs.Parsing.Alignment
import ImageLabeling.Proofs.Parsing.Argmax
import ImageLabeling.Proofs.Parsing.Artifacts
import ImageLabeling.Proofs.Parsing.Confinement
import ImageLabeling.Proofs.Parsing.Crashes
import ImageLabeling.Proofs.Parsing.Flips
import ImageLabeling.Proofs.Parsing.Fusion
import ImageLabeling.Proofs.Parsing.Interpolation
import ImageLabeling.Proofs.Parsing.Isolation
import ImageLabeling.Proofs.Parsing.Labeling
import ImageLabeling.Proofs.Parsing.Mirror
import ImageLabeling.Proofs.Parsing.Opening
import ImageLabeling.Proofs.Parsing.Passes
import ImageLabeling.Proofs.Parsing.Pictures
import ImageLabeling.Proofs.Parsing.Planes
import ImageLabeling.Proofs.Parsing.Positions
import ImageLabeling.Proofs.Parsing.Saving
import ImageLabeling.Proofs.Parsing.Summation
import ImageLabeling.Proofs.Parsing.Unanimity
import ImageLabeling.Proofs.Session
import ImageLabeling.Proofs.Source.Directory
import ImageLabeling.Proofs.Source.List
import ImageLabeling.Proofs.Tensor
import ImageLabeling.Proofs.Text.Lines
import ImageLabeling.Proofs.Text.Utf8
import ImageLabeling.Proofs.Timing
import ImageLabeling.Proofs.Turns
import ImageLabeling.Proofs.Writes
import ImageLabeling.Session
import ImageLabeling.Source
import ImageLabeling.Table
import ImageLabeling.Tensor
import ImageLabeling.Text.Alphanumeric
import ImageLabeling.Text.Blank
import ImageLabeling.Text.Hidden
import ImageLabeling.Text.LetterCase
import ImageLabeling.Text.Lines
import ImageLabeling.Text.Lowercase
import ImageLabeling.Text.Pattern
import ImageLabeling.Text.Pattern.Reader
import ImageLabeling.Text.Plain
import ImageLabeling.Text.Quoted
import ImageLabeling.Text.Utf8
import ImageLabeling.Timing
