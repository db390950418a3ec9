import HolePunch.Address.Basic
import HolePunch.Address.Parser
import HolePunch.Address.Printer
import HolePunch.Assoc
import HolePunch.AsyncSource
import HolePunch.Binary64.Basic
import HolePunch.Binary64.Text
import HolePunch.CommandLine.Arguments
import HolePunch.CommandLine.Run
import HolePunch.Endpoint
import HolePunch.Error
import HolePunch.Event
import HolePunch.Exchange
import HolePunch.Frame.Basic
import HolePunch.Frame.Session
import HolePunch.Frame.Transport
import HolePunch.Header
import HolePunch.Inspect.Commands
import HolePunch.Inspect.Failure
import HolePunch.Inspect.HexText
import HolePunch.Kind
import HolePunch.LogFilter
import HolePunch.Main
import HolePunch.Message.Basic
import HolePunch.Message.Codec
import HolePunch.Proofs.Address.Numbers
import HolePunch.Proofs.Address.RoundTrip
import HolePunch.Proofs.Binary64.Reading
import HolePunch.Proofs.Chain
import HolePunch.Proofs.Endpoint.Equality
import HolePunch.Proofs.Endpoint.Text
import HolePunch.Proofs.Event.Accounting
import HolePunch.Proofs.Exchange.Listening
import HolePunch.Proofs.Exchange.Receiving
import HolePunch.Proofs.Exchange.Sending
import HolePunch.Proofs.Frame.Chunking
import HolePunch.Proofs.Frame.Delivery
import HolePunch.Proofs.Frame.Ending
import HolePunch.Proofs.Frame.Intake
import HolePunch.Proofs.Frame.Plain
import HolePunch.Proofs.Frame.Stream
import HolePunch.Proofs.Frame.Writing
import HolePunch.Proofs.Inspect.Dump
import HolePunch.Proofs.Inspect.HexInput
import HolePunch.Proofs.Inspect.HexText
import HolePunch.Proofs.Message.Dispatch
import HolePunch.Proofs.Message.Editing
import HolePunch.Proofs.Message.Front
import HolePunch.Proofs.Message.Layout
import HolePunch.Proofs.Message.Outcome
import HolePunch.Proofs.Message.RoundTrip
import HolePunch.Proofs.Message.Sequence
import HolePunch.Proofs.Message.Text
import HolePunch.Proofs.Message.Wide
import HolePunch.Proofs.Message.WireForm
import HolePunch.Proofs.Message.Writing
import HolePunch.Proofs.Settings.Agreement
import HolePunch.Proofs.Settings.Guess
import HolePunch.Proofs.Settings.Layering
import HolePunch.Proofs.Settings.Order
import HolePunch.Proofs.Settings.Override
import HolePunch.Proofs.Settings.RoundTrip
import HolePunch.Proofs.Settings.Written
import HolePunch.Proofs.Source.Reads
import HolePunch.Proofs.Text.Digits
import HolePunch.Proofs.Text.Hexadecimal
import HolePunch.Proofs.Toml.Distinct
import HolePunch.Proofs.Toml.Escape
import HolePunch.Proofs.Toml.Lines
import HolePunch.Proofs.Toml.Scalars
import HolePunch.Proofs.Toml.Strings
import HolePunch.Proofs.Wire.InPlace
import HolePunch.Proofs.Wire.Reading
import HolePunch.ReceiveBuffer
import HolePunch.Settings.Basic
import HolePunch.Settings.Document
import HolePunch.Settings.Layer
import HolePunch.Settings.Load
import HolePunch.Source
import HolePunch.Text.Alphanumeric
import HolePunch.Text.Blank
import HolePunch.Text.Digits
import HolePunch.Text.Duration
import HolePunch.Text.Parse
import HolePunch.Toml.Blank
import HolePunch.Toml.Parser
import HolePunch.Toml.Printer
import HolePunch.Toml.Scalar
import HolePunch.Toml.Table
import HolePunch.Toml.Text
import HolePunch.Toml.Value
import HolePunch.Wire.Cursor
import HolePunch.Wire.InPlace
import HolePunch.Wire.Word
