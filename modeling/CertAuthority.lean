import CertAuthority.Bytes
import CertAuthority.Calendar.Date
import CertAuthority.Calendar.Instant
import CertAuthority.Certificate.AltName
import CertAuthority.Certificate.AltNameJson
import CertAuthority.Certificate.AttributeType
import CertAuthority.Certificate.Basic
import CertAuthority.Certificate.Contents
import CertAuthority.Certificate.Draft
import CertAuthority.Certificate.Encode
import CertAuthority.Certificate.Extension
import CertAuthority.Certificate.Name
import CertAuthority.Certificate.Pem
import CertAuthority.Certificate.SerialNumber
import CertAuthority.Certificate.Validity
import CertAuthority.Certificate.Verify
import CertAuthority.Command.Failure
import CertAuthority.Command.Generate
import CertAuthority.Command.Invocation
import CertAuthority.Command.Line
import CertAuthority.Command.LogFilter
import CertAuthority.Command.Report
import CertAuthority.Command.Run
import CertAuthority.Command.Show
import CertAuthority.Crypto.Ecdsa
import CertAuthority.Crypto.Ed25519
import CertAuthority.Crypto.Hash
import CertAuthority.Crypto.ModArith
import CertAuthority.Crypto.Rsa
import CertAuthority.Crypto.Sha2
import CertAuthority.Crypto.Weierstrass
import CertAuthority.Der.Element
import CertAuthority.Der.Encode
import CertAuthority.Der.Oid
import CertAuthority.Der.Strict
import CertAuthority.Error
import CertAuthority.Event
import CertAuthority.Files.AtomicWrite
import CertAuthority.Files.Fault
import CertAuthority.Files.Kind
import CertAuthority.Files.Listing
import CertAuthority.Files.Path
import CertAuthority.Files.Tree
import CertAuthority.Files.WriteMode
import CertAuthority.Host
import CertAuthority.IpAddress
import CertAuthority.Json.Decode
import CertAuthority.Json.Double
import CertAuthority.Json.Fault
import CertAuthority.Json.Reader
import CertAuthority.Json.Write
import CertAuthority.Key.Algorithm
import CertAuthority.Key.Container
import CertAuthority.Key.Pair
import CertAuthority.Key.Supply
import CertAuthority.Main
import CertAuthority.Pem.Block
import CertAuthority.Pem.Bundle
import CertAuthority.Pem.Envelope
import CertAuthority.Pem.Lines
import CertAuthority.Program
import CertAuthority.SecurityConfig
import CertAuthority.Store.Component
import CertAuthority.Store.ConfigFile
import CertAuthority.Store.Layout
import CertAuthority.Store.Location
import CertAuthority.Text.Base64
import CertAuthority.Text.Blank
import CertAuthority.Text.Decimal
import CertAuthority.Text.Quoted
import CertAuthority.Text.Unprintable
import CertAuthority.Text.Utf16
import CertAuthority.Text.Utf8
import CertAuthority.Certificate.Transport
import CertAuthority.Proofs.Pem.Block
import CertAuthority.Proofs.Certificate.Encodings
import CertAuthority.Proofs.Files.Ancestors
import CertAuthority.Proofs.Files.Walk
import CertAuthority.Proofs.Program.Run
import CertAuthority.Proofs.Files.AtomicWrite
import CertAuthority.Proofs.Bytes
import CertAuthority.Proofs.Store.Component
import CertAuthority.Proofs.Calendar.Date
import CertAuthority.Proofs.Der.Element
import CertAuthority.Proofs.Certificate.Validity
import CertAuthority.Proofs.Certificate.Fields
import CertAuthority.Proofs.Certificate.Extensions
import CertAuthority.Proofs.Certificate.ReadBack
import CertAuthority.Proofs.Certificate.Order
import CertAuthority.Proofs.Certificate.Draft
import CertAuthority.Proofs.Files.Names
import CertAuthority.Proofs.Files.Success
import CertAuthority.Proofs.Files.Beside
import CertAuthority.Proofs.Command.Generate
import CertAuthority.Proofs.Certificate.Layouts
import CertAuthority.Proofs.Certificate.Built
import CertAuthority.Proofs.Certificate.Identity
import CertAuthority.Proofs.Calendar.Days
import CertAuthority.Proofs.Certificate.Window
import CertAuthority.Proofs.Certificate.SelfSigned
import CertAuthority.Proofs.Certificate.SelfIssued
import CertAuthority.Proofs.Certificate.NameText
import CertAuthority.Proofs.Der.Prefix
import CertAuthority.Proofs.Certificate.KeyCalls
import CertAuthority.Proofs.Text.Base64Canonical
import CertAuthority.Proofs.Program.Count
import CertAuthority.Proofs.Pem.Bundle
import CertAuthority.Proofs.Certificate.Bundle
import CertAuthority.Proofs.Store.Call
import CertAuthority.Proofs.Store.Paths
import CertAuthority.Proofs.Certificate.AltNames
import CertAuthority.Proofs.Certificate.Binary
import CertAuthority.Proofs.Files.Linkless
import CertAuthority.Proofs.Store.History
import CertAuthority.Proofs.Files.Targets
import CertAuthority.Proofs.Files.Parent
import CertAuthority.Proofs.Command.Work
import CertAuthority.Proofs.Command.Session
import CertAuthority.Proofs.Der.Strict
import CertAuthority.Proofs.Pem.Envelope
import CertAuthority.Proofs.Key.Reload
import CertAuthority.Proofs.Files.Fresh
import CertAuthority.Proofs.Files.Pair
import CertAuthority.Proofs.Command.Report
import CertAuthority.Proofs.Command.Issue
import CertAuthority.Proofs.Command.ReadBack
import CertAuthority.Proofs.Der.Series
import CertAuthority.Proofs.Text.Utf8Canonical
import CertAuthority.Proofs.Certificate.Acceptance
import CertAuthority.Proofs.Certificate.Constraints
import CertAuthority.Proofs.Certificate.GeneralNames
import CertAuthority.Proofs.Certificate.Frames
import CertAuthority.Proofs.Certificate.Readers
import CertAuthority.Proofs.Store.Existing
import CertAuthority.Proofs.Files.Writable
import CertAuthority.Proofs.Command.Grant
import CertAuthority.Proofs.Command.Days
import CertAuthority.Proofs.Command.Export
import CertAuthority.Proofs.Command.ReportJson
import CertAuthority.Proofs.Key.Loaded
import CertAuthority.Proofs.Json.Grammar
import CertAuthority.Proofs.Json.Steps
import CertAuthority.Proofs.Json.Strings
import CertAuthority.Proofs.Json.Numbers
import CertAuthority.Proofs.Json.Skip
import CertAuthority.Proofs.Json.Exact
import CertAuthority.Proofs.Json.Record
import CertAuthority.Proofs.Json.Written
import CertAuthority.Proofs.SecurityConfig.Settings
import CertAuthority.Proofs.SecurityConfig.Overrides
import CertAuthority.Proofs.SecurityConfig.RoundTrip
import CertAuthority.Proofs.Files.Outline
import CertAuthority.Proofs.Program.Abreast
import CertAuthority.Proofs.Store.Concealed
import CertAuthority.Proofs.Certificate.Concealed
import CertAuthority.Proofs.Command.Secrecy
import CertAuthority.Proofs.Certificate.SerialNumber
import CertAuthority.Proofs.IpAddress
import CertAuthority.Proofs.Certificate.AltNameJson
import CertAuthority.Proofs.Pem.BlockForm
