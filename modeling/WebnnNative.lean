import WebnnNative.Graph.Basic
import WebnnNative.Graph.TopologicalSort
import WebnnNative.Graph.SortInvariant
import WebnnNative.Graph.SortRun
import WebnnNative.Graph.SortCycle
import WebnnNative.Graph.Builder
import WebnnNative.Graph.Build
import WebnnNative.Graph.SortDfs
import WebnnNative.Graph.Extension
import WebnnNative.Wire.ClientMatches
import WebnnNative.Wire.Allocator
import WebnnNative.Wire.Client
import WebnnNative.Wire.ConnectionGuard
import WebnnNative.Wire.Release
import WebnnNative.Wire.Server
import WebnnNative.Wire.Mirror
import WebnnNative.Wire.Isolation
